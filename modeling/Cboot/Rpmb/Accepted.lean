import Cboot.Rpmb.Model
import Mathlib.Tactic.IntervalCases

/-!
A response counts as authentic and fresh when it has the type that is asked for and an OK result, its MAC is that of its
message under the key, and it answers this request: by the nonce, or by the address and the counter of a write.
-/

namespace Cboot.Rpmb
open Lib Attempt

def padded (key : Bytes 32) (pad : UInt8) : List UInt8 := (key.toList ++ List.replicate 32 0).map (· ^^^ pad)

def hmac (sha256 : List UInt8 → Bytes 32) (key : Bytes 32) (message : List UInt8) : Bytes 32 :=
  sha256 (padded key 0x5c ++ (sha256 (padded key 0x36 ++ message)).toList)

theorem foldl_set_range (f : Nat → UInt8) (buf : List UInt8) (n : Nat) (room : n ≤ buf.length) :
    (List.range n).foldl (fun buf i => buf.set i (f i)) buf = (List.range n).map f ++ buf.drop n := by
  induction n with
  | zero => simp
  | succ n ih =>
    rw [List.range_succ, List.foldl_append, ih (by omega), List.map_append]
    simp only [List.foldl_cons, List.foldl_nil, List.map_cons, List.map_nil]
    have cut : buf.drop n = buf[n] :: buf.drop (n + 1) := List.drop_eq_getElem_cons (by omega)
    rw [List.set_append_right _ _ (by simp), cut]
    simp only [List.length_map, List.length_range, Nat.sub_self, List.set_cons_zero, List.append_assoc,
      List.cons_append, List.nil_append]

theorem fillPad_eq {mkey buf : List UInt8} {pad : UInt8} (full : mkey.length = 64) (room : 64 ≤ buf.length) :
    fillPad mkey pad buf = mkey.map (· ^^^ pad) ++ buf.drop 64 := by
  unfold fillPad hmacBlockSize
  rw [foldl_set_range _ _ _ room]
  congr 1
  apply List.ext_getElem
  · simp [full]
  · intro i bound _
    have inside : i < mkey.length := by simpa [full] using bound
    simp [inside]

theorem memcpy_append (front back bytes : List UInt8) :
    memcpy (front ++ back) front.length bytes = front ++ bytes ++ back.drop bytes.length := by
  unfold memcpy
  rw [List.take_left', List.drop_append, List.drop_eq_nil_of_le (by omega), Nat.add_sub_cancel_left]
  · simp
  · rfl

section
variable (key : Bytes 32)

theorem memcpy_key :
    memcpy (List.replicate hmacBlockSize 0) 0 key.toList = key.toList ++ List.replicate 32 0 := by
  simp [memcpy, hmacBlockSize]

@[simp] theorem length_padded (pad : UInt8) : (padded key pad).length = 64 := by
  simp [padded]

theorem fillPad_key {key : Bytes 32} {pad : UInt8} {buf : List UInt8} (room : 64 ≤ buf.length) :
    fillPad (key.toList ++ List.replicate 32 0) pad buf = padded key pad ++ buf.drop 64 :=
  fillPad_eq (by simp) room

theorem memcpy_padded (pad : UInt8) (back bytes : List UInt8) :
    memcpy (padded key pad ++ back) hmacBlockSize bytes = padded key pad ++ bytes ++ back.drop bytes.length := by
  have copied := memcpy_append (padded key pad) back bytes
  rwa [length_padded] at copied

theorem length_macMsg (frame : RpmbFrame) : frame.macMsg.length = 284 := by
  simp [RpmbFrame.macMsg]

theorem innerMessage_eq (frame : RpmbFrame) :
    memcpy (fillPad (key.toList ++ List.replicate 32 0) 0x36 (List.replicate (hmacBlockSize + rpmbMacMsgSize) 0))
      hmacBlockSize frame.macMsg = padded key 0x36 ++ frame.macMsg := by
  have room : 64 ≤ (List.replicate (hmacBlockSize + rpmbMacMsgSize) (0 : UInt8)).length := by
    rw [List.length_replicate]
    decide
  rw [fillPad_key room, memcpy_padded, length_macMsg, List.drop_drop, List.drop_eq_nil_of_le, List.append_nil]
  rw [List.length_replicate]
  decide

theorem outerMessage_eq (frame : RpmbFrame) (digest : Bytes 32) :
    (memcpy (fillPad (key.toList ++ List.replicate 32 0) 0x5c (padded key 0x36 ++ frame.macMsg)) hmacBlockSize
      digest.toList).take (hmacBlockSize + rpmbKeyOrMacSize) = padded key 0x5c ++ digest.toList := by
  rw [fillPad_key (by simp), memcpy_padded]
  exact List.take_left' (by simp [hmacBlockSize, rpmbKeyOrMacSize])

end

structure MacEnv.Works (env : MacEnv) : Prop where
  buffer : env.buffer = true
  digest : env.digest = true
  inner : env.inner = none
  outer : env.outer = none

section
variable {sha256 : List UInt8 → Bytes 32} {key : Option (Bytes 32)} {frame : RpmbFrame} {env : MacEnv}
  {sent sent' : List Request}

theorem generateSha256Hash_ok {input : List UInt8} {error : Option UInt32} {hash : Bytes 32} :
    (generateSha256Hash sha256 input error).run sent = (.ok hash, sent') ↔
      error = none ∧ hash = sha256 input ∧ sent' = sent := by
  cases error with
  | some e => simp [generateSha256Hash]
  | none =>
    simp only [generateSha256Hash, run_pure, Prod.mk.injEq, Except.ok.injEq, true_and]
    exact ⟨fun ⟨hash, same⟩ => ⟨hash.symm, same.symm⟩, fun ⟨hash, same⟩ => ⟨hash.symm, same.symm⟩⟩

variable {u : Unit}

theorem refuse_ok {bad : Bool} {e : Error} :
    (refuse bad e).run sent = (.ok u, sent') ↔ bad = false ∧ sent' = sent := by
  cases bad <;> simp [refuse, eq_comm]

theorem calculateMac_ok {mac : Bytes 32} : (calculateMac sha256 key frame env).run sent = (.ok mac, sent') ↔
      env.Works ∧ (∃ k, key = some k ∧ mac = hmac sha256 k frame.macMsg) ∧ sent' = sent := by
  cases key with
  | none => simp [calculateMac]
  | some k =>
    unfold calculateMac
    simp only [memcpy_key, run_bind_eq_ok, refuse_ok, generateSha256Hash_ok, innerMessage_eq, outerMessage_eq]
    constructor
    · rintro ⟨_, _, ⟨buffer, rfl⟩, _, _, ⟨digest, rfl⟩, hash, _, ⟨inner, rfl, rfl⟩, outer, rfl, same⟩
      exact ⟨⟨by simpa using buffer, by simpa using digest, inner, outer⟩, ⟨k, rfl, rfl⟩, same⟩
    · rintro ⟨works, ⟨k', same, rfl⟩, rfl⟩
      cases same
      exact ⟨(), _, ⟨by simp [works.buffer], rfl⟩, (), _, ⟨by simp [works.digest], rfl⟩, _, _,
        ⟨works.inner, rfl, rfl⟩, works.outer, rfl, rfl⟩

theorem checkResponse_ok {resp : UInt16} : (checkResponse frame resp).run sent = (.ok u, sent') ↔
      (convertFromRpmbU16 frame.result = rpmbResOk ∧ convertFromRpmbU16 frame.reqOrResp = resp) ∧ sent' = sent := by
  unfold checkResponse
  by_cases ok : convertFromRpmbU16 frame.result = rpmbResOk <;>
    by_cases type : convertFromRpmbU16 frame.reqOrResp = resp <;> simp [ok, type, eq_comm]

theorem compareMac_ok {mac : Bytes 32} :
    (compareMac frame mac).run sent = (.ok u, sent') ↔ frame.keyOrMac = mac ∧ sent' = sent := by
  unfold compareMac
  by_cases same : frame.keyOrMac = mac <;> simp [same, eq_comm]

theorem compareNonce_ok {nonce : Bytes 16} :
    (compareNonce frame nonce).run sent = (.ok u, sent') ↔ frame.nonce = nonce ∧ sent' = sent := by
  unfold compareNonce
  by_cases same : frame.nonce = nonce <;> simp [same, eq_comm]

theorem sdmmcRpmbIo_ok {request : Request} {reply : Except UInt32 RpmbFrame} :
    (sdmmcRpmbIo request reply).run sent = (.ok frame, sent') ↔ reply = .ok frame ∧ sent' = sent ++ [request] := by
  unfold sdmmcRpmbIo
  cases reply <;> simp [Except.mapError, eq_comm]

end

theorem toUInt8_and (n : UInt32) : (n &&& 0xff).toUInt8 = n.toUInt8 := by
  apply UInt8.toNat_inj.mp
  rw [UInt32.toNat_toUInt8, UInt32.toNat_and, UInt32.toNat_toUInt8]
  change (n.toNat &&& (2 ^ 8 - 1)) % 256 = _
  rw [Nat.and_two_pow_sub_one_eq_mod, Nat.mod_mod]

theorem convert_rpmbU32 (n : UInt32) : convertFromRpmbU32 (convertToRpmbU32 n) = n := by
  unfold convertFromRpmbU32 convertToRpmbU32
  simp only [toUInt8_and]
  apply UInt32.toBitVec_inj.mp
  apply BitVec.eq_of_getLsbD_eq
  intro i bound
  interval_cases i <;> simp [-UInt32.toUInt32_toUInt8]

section
variable (sha256 : List UInt8 → Bytes 32) (key : Option (Bytes 32))

structure Typed (resp : UInt16) (frame : RpmbFrame) : Prop where
  result : convertFromRpmbU16 frame.result = rpmbResOk
  type : convertFromRpmbU16 frame.reqOrResp = resp

def Sealed (frame : RpmbFrame) : Prop := ∃ k, key = some k ∧ frame.keyOrMac = hmac sha256 k frame.macMsg

inductive Call where
  | getWriteCounter (contextGiven : Bool) (env : CounterEnv)
  | read (addr : UInt16) (bufp : Bool) (buflen : UInt32) (env : ReadEnv)
  | write (addr : UInt16) (bufp : Option (List UInt8)) (buflen : UInt32) (env : WriteEnv)

structure Counted (addr : UInt16) (sent : UInt32) (frame : RpmbFrame) : Prop where
  address : convertFromRpmbU16 frame.address = addr
  counter : (convertFromRpmbU32 frame.writeCounter).toNat = sent.toNat + 1

/-- Success means that the response was authentic and fresh. -/
def Call.Vouched : Call → Prop
  | .getWriteCounter contextGiven env => ∀ counter sent,
      (sdmmcRpmbGetWriteCounter sha256 key contextGiven env).run [] = (.ok counter, sent) →
        ∃ request frame, sent = [request] ∧ env.reply = .ok frame ∧ Typed rpmbRespGetCounter frame ∧
          Sealed sha256 key frame ∧ frame.nonce = request.reqFrame.nonce
  | .read addr bufp buflen env => ∀ bytes sent,
      (sdmmcRpmbRead sha256 key addr bufp buflen env).run [] = (.ok bytes, sent) →
        ∃ request frame, sent = [request] ∧ env.reply = .ok frame ∧ Typed rpmbRespRead frame ∧
          Sealed sha256 key frame ∧ frame.nonce = request.reqFrame.nonce
  | .write addr bufp buflen env => ∀ sent, (sdmmcRpmbWrite sha256 key addr bufp buflen env).run [] = (.ok (), sent) →
        ∃ asked request frame, sent = [asked, request] ∧ env.reply = .ok frame ∧ Typed rpmbRespWrite frame ∧
          Sealed sha256 key frame ∧ Counted addr (convertFromRpmbU32 request.reqFrame.writeCounter) frame

def Call.Misled : Call → Prop
  | .getWriteCounter contextGiven env => (contextGiven = true ∨ env.context = true) ∧ env.mac.Works ∧
      ∃ frame, env.reply = .ok frame ∧ Typed rpmbRespGetCounter frame ∧ Sealed sha256 key frame ∧
        frame.nonce ≠ rpmbNonce
  | .read .. => False
  | .write addr bufp buflen env => bufp ≠ none ∧ buflen ≠ 0 ∧ buflen.toNat ≤ rpmbDataSize ∧
      env.counter.mac.Works ∧ env.mac.Works ∧
      ∃ counted frame, env.counter.reply = .ok counted ∧ Typed rpmbRespGetCounter counted ∧
        Sealed sha256 key counted ∧ env.reply = .ok frame ∧ Typed rpmbRespWrite frame ∧
        ¬ (Sealed sha256 key frame ∧ Counted addr (convertFromRpmbU32 counted.writeCounter) frame)

end

section
variable {sha256 : List UInt8 → Bytes 32} {key : Option (Bytes 32)} {sent sent' : List Request}

theorem getWriteCounter_ok {contextGiven : Bool} {env : CounterEnv} {counter : UInt32} :
    (sdmmcRpmbGetWriteCounter sha256 key contextGiven env).run sent = (.ok counter, sent') ↔
      (contextGiven = true ∨ env.context = true) ∧ env.mac.Works ∧
        (∃ frame, env.reply = .ok frame ∧ Typed rpmbRespGetCounter frame ∧ Sealed sha256 key frame ∧
          counter = convertFromRpmbU32 frame.writeCounter) ∧ sent' = sent ++ [⟨false, counterRequest, zeroFrame⟩] := by
  unfold sdmmcRpmbGetWriteCounter
  simp only [run_bind_eq_ok, refuse_ok, sdmmcRpmbIo_ok, checkResponse_ok, calculateMac_ok, compareMac_ok, run_pure]
  constructor
  · rintro ⟨_, _, ⟨given, rfl⟩, frame, _, ⟨reply, rfl⟩, _, _, ⟨⟨result, type⟩, rfl⟩, mac, _,
      ⟨works, ⟨k, rfl, rfl⟩, rfl⟩, _, _, ⟨same, rfl⟩, ended⟩
    cases ended
    have memory : contextGiven = true ∨ env.context = true := by
      cases contextGiven <;> simp_all
    exact ⟨memory, works, ⟨frame, reply, ⟨result, type⟩, ⟨k, rfl, same⟩, rfl⟩, rfl⟩
  · rintro ⟨memory, works, ⟨frame, reply, typed, ⟨k, rfl, same⟩, rfl⟩, rfl⟩
    have given : (!contextGiven && !env.context) = false := by
      rcases memory with memory | memory <;> simp [memory]
    exact ⟨(), _, ⟨given, rfl⟩, frame, _, ⟨reply, rfl⟩, (), _, ⟨⟨typed.result, typed.type⟩, rfl⟩, _, _,
      ⟨works, ⟨k, rfl, rfl⟩, rfl⟩, (), _, ⟨same, rfl⟩, rfl⟩

variable {buflen : UInt32}

theorem read_ok {addr : UInt16} {bufp : Bool} {env : ReadEnv} {bytes : List UInt8}
    (ended : (sdmmcRpmbRead sha256 key addr bufp buflen env).run sent = (.ok bytes, sent')) :
    ∃ frame, env.reply = .ok frame ∧ Typed rpmbRespRead frame ∧ Sealed sha256 key frame ∧
      frame.nonce = rpmbNonce ∧ sent' = sent ++ [⟨false, readRequest addr, zeroFrame⟩] := by
  unfold sdmmcRpmbRead at ended
  simp only [run_bind_eq_ok, refuse_ok, sdmmcRpmbIo_ok, checkResponse_ok, compareNonce_ok, calculateMac_ok,
    compareMac_ok] at ended
  obtain ⟨_, _, ⟨-, rfl⟩, _, _, ⟨-, rfl⟩, frame, _, ⟨reply, rfl⟩, _, _, ⟨⟨result, type⟩, rfl⟩, _, _,
    ⟨nonce, rfl⟩, mac, _, ⟨-, ⟨k, rfl, rfl⟩, rfl⟩, _, _, ⟨same, rfl⟩, ended⟩ := ended
  cases ended
  exact ⟨frame, reply, ⟨result, type⟩, ⟨k, rfl, same⟩, nonce, rfl⟩

variable {bufp : Option (List UInt8)}

theorem args_ok :
    (bufp.isNone || buflen == 0 || rpmbDataSize < buflen.toNat) = false ↔
      bufp ≠ none ∧ buflen ≠ 0 ∧ buflen.toNat ≤ rpmbDataSize := by
  cases bufp <;> simp

theorem write_ok {addr : UInt16} {env : WriteEnv} {u : Unit} :
    (sdmmcRpmbWrite sha256 key addr bufp buflen env).run sent = (.ok u, sent') ↔
      (bufp ≠ none ∧ buflen ≠ 0 ∧ buflen.toNat ≤ rpmbDataSize) ∧ env.counter.mac.Works ∧ env.mac.Works ∧
      ∃ counted frame mac, env.counter.reply = .ok counted ∧ Typed rpmbRespGetCounter counted ∧
        Sealed sha256 key counted ∧ env.reply = .ok frame ∧ Typed rpmbRespWrite frame ∧
        (∃ k, key = some k ∧ mac = hmac sha256 k
          (writeRequest (convertFromRpmbU32 counted.writeCounter) addr ((bufp.getD []).take buflen.toNat)).macMsg) ∧
        sent' = sent ++ [⟨false, counterRequest, zeroFrame⟩, ⟨true,
          { writeRequest (convertFromRpmbU32 counted.writeCounter) addr ((bufp.getD []).take buflen.toNat) with
            keyOrMac := mac }, resultRequest⟩] := by
  unfold sdmmcRpmbWrite
  simp only [run_bind_eq_ok, refuse_ok, args_ok, getWriteCounter_ok, sdmmcRpmbIo_ok, checkResponse_ok, calculateMac_ok]
  constructor
  · rintro ⟨_, _, ⟨-, rfl⟩, _, _, ⟨args, rfl⟩, counter, _,
      ⟨-, works, ⟨counted, reply, typed, intact, rfl⟩, rfl⟩, mac, _, ⟨works', own, rfl⟩, frame, _, ⟨reply', rfl⟩,
      ⟨result, type⟩, rfl⟩
    exact ⟨args, works, works', counted, frame, mac, reply, typed, intact, reply', ⟨result, type⟩, own, by simp⟩
  · rintro ⟨args, works, works', counted, frame, mac, reply, typed, intact, reply', typed', own, rfl⟩
    obtain ⟨k, given, -⟩ := id own
    exact ⟨(), _, ⟨by rw [given]; rfl, rfl⟩, (), _, ⟨args, rfl⟩, _, _,
      ⟨.inl trivial, works, ⟨counted, reply, typed, intact, rfl⟩, rfl⟩, mac, _, ⟨works', own, rfl⟩, frame, _, ⟨reply', rfl⟩, ⟨typed'.result, typed'.type⟩, by simp⟩

end

section
variable (sha256 : List UInt8 → Bytes 32) (key : Option (Bytes 32))

theorem counter_vouched (contextGiven : Bool) (env : CounterEnv) :
    (Call.getWriteCounter contextGiven env).Vouched sha256 key ↔
      ¬ (Call.getWriteCounter contextGiven env).Misled sha256 key := by
  constructor
  · rintro vouched ⟨memory, works, frame, reply, typed, intact, stale⟩
    obtain ⟨request, frame', only, reply', -, -, nonce⟩ := vouched (convertFromRpmbU32 frame.writeCounter) _
      (getWriteCounter_ok.mpr ⟨memory, works, ⟨frame, reply, typed, intact, rfl⟩, rfl⟩)
    cases reply.symm.trans reply'
    cases only
    exact stale nonce
  · intro straight counter sent ended
    obtain ⟨memory, works, ⟨frame, reply, typed, intact, -⟩, rfl⟩ := getWriteCounter_ok.mp ended
    refine ⟨_, frame, rfl, reply, typed, intact, ?_⟩
    by_contra stale
    exact straight ⟨memory, works, frame, reply, typed, intact, stale⟩

theorem write_vouched (addr : UInt16) (bufp : Option (List UInt8)) (buflen : UInt32) (env : WriteEnv) :
    (Call.write addr bufp buflen env).Vouched sha256 key ↔ ¬ (Call.write addr bufp buflen env).Misled sha256 key := by
  constructor
  · rintro vouched ⟨buffer, some, short, works, works', counted, frame, reply, typed, intact, reply', typed', other⟩
    obtain ⟨k, given, same⟩ := id intact
    obtain ⟨asked, request, frame', sent, reply'', -, intact', own⟩ := vouched _
      (write_ok.mpr ⟨⟨buffer, some, short⟩, works, works', counted, frame, _, reply, typed, intact, reply', typed',
        ⟨k, given, rfl⟩, rfl⟩)
    cases reply'.symm.trans reply''
    cases sent
    rw [writeRequest, convert_rpmbU32] at own
    exact other ⟨intact', own⟩
  · intro straight sent ended
    obtain ⟨⟨buffer, some, short⟩, works, works', counted, frame, mac, reply, typed, intact, reply', typed', -, rfl⟩ :=
      write_ok.mp ended
    have fresh : Sealed sha256 key frame ∧ Counted addr (convertFromRpmbU32 counted.writeCounter) frame := by
      by_contra other
      exact straight ⟨buffer, some, short, works, works', counted, frame, reply, typed, intact, reply', typed', other⟩
    refine ⟨_, _, frame, rfl, reply', typed', fresh.1, ?_⟩
    rw [writeRequest, convert_rpmbU32]
    exact fresh.2

/-- `Misled` is about the frames that come back and the answers of the hash engine. -/
theorem results_vouched (call : Call) : call.Vouched sha256 key ↔ ¬ call.Misled sha256 key := by
  cases call with
  | getWriteCounter contextGiven env => exact counter_vouched sha256 key contextGiven env
  | read addr bufp buflen env =>
    refine ⟨fun _ misled => misled, fun _ bytes sent ended => ?_⟩
    obtain ⟨frame, reply, typed, intact, nonce, rfl⟩ := read_ok ended
    exact ⟨_, frame, rfl, reply, typed, intact, nonce⟩
  | write addr bufp buflen env => exact write_vouched sha256 key addr bufp buflen env

def replayed (k : Bytes 32) : RpmbFrame :=
  let frame := { zeroFrame with reqOrResp := convertToRpmbU16 rpmbRespGetCounter }
  { frame with keyOrMac := hmac sha256 k frame.macMsg }

theorem replayed_typed (k : Bytes 32) : Typed rpmbRespGetCounter (replayed sha256 k) := by
  constructor
  · change convertFromRpmbU16 (.replicate 2 0) = rpmbResOk
    decide
  · change convertFromRpmbU16 (convertToRpmbU16 rpmbRespGetCounter) = rpmbRespGetCounter
    decide

def forged : RpmbFrame := { zeroFrame with reqOrResp := convertToRpmbU16 rpmbRespWrite }

end

def ready : MacEnv := ⟨true, true, none, none⟩

theorem ready_works : ready.Works := ⟨rfl, rfl, rfl, rfl⟩

/-- With no hash function does the counter come from a fresh frame, or a write from an authentic one. -/
theorem results_unvouched : ¬ ∃ sha256 : List UInt8 → Bytes 32,
    (∀ key contextGiven env, (Call.getWriteCounter contextGiven env).Vouched sha256 key) ∨
      ∀ key addr bufp buflen env, (Call.write addr bufp buflen env).Vouched sha256 key := by
  let k : Bytes 32 := .replicate 32 0
  rintro ⟨sha256, counter | write⟩
  · have vouched := counter (some k) true ⟨true, .ok (replayed sha256 k), ready⟩
    refine (counter_vouched ..).mp vouched ⟨.inl rfl, ready_works, replayed sha256 k, rfl,
      replayed_typed sha256 k, ?_, ?_⟩
    · exact ⟨k, rfl, rfl⟩
    · change (Vector.replicate 16 0 : Bytes 16) ≠ rpmbNonce
      decide
  · have vouched := write (some k) 0 (some [0]) 1 ⟨⟨true, .ok (replayed sha256 k), ready⟩, ready, .ok forged⟩
    refine (write_vouched ..).mp vouched ⟨by decide, by decide, by decide, ready_works, ready_works,
      replayed sha256 k, forged, rfl, replayed_typed sha256 k, ⟨k, rfl, rfl⟩, rfl, ⟨by decide, by decide⟩, ?_⟩
    rintro ⟨-, counted⟩
    have counter := counted.counter
    change (convertFromRpmbU32 (.replicate 4 0)).toNat = (convertFromRpmbU32 (.replicate 4 0)).toNat + 1 at counter
    omega

end Cboot.Rpmb
