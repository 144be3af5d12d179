import Cboot.Linuxboot.Verified
import Cboot.Linuxboot.Devices

/-!
`tegrabl_verify_boot_img_hdr` adds the sizes of the header up in 32 bits, as they are.
-/

namespace Cboot.Linuxboot
open Lib Attempt

theorem roundUp_bits {n : Nat} (x y : BitVec n) : (x &&& ~~~y) + y = x ||| y := by
  have apart : (x &&& ~~~y) &&& y = 0#n := by
    rw [BitVec.and_assoc, BitVec.and_comm (~~~y), BitVec.and_not_self]
    exact BitVec.and_zero
  rw [BitVec.add_eq_or_of_and_eq_zero _ _ apart]
  apply BitVec.eq_of_getLsbD_eq
  intro i bound
  rw [BitVec.getLsbD_or, BitVec.getLsbD_or, BitVec.getLsbD_and, BitVec.getLsbD_not]
  cases y.getLsbD i <;> simp [bound]

theorem roundUpPow2_eq (n w : UInt32) : roundUpPow2 n w = ((n - 1) ||| (w - 1)) + 1 := by
  unfold roundUpPow2
  have bits : ((n - 1) &&& ~~~(w - 1)) + (w - 1) = (n - 1) ||| (w - 1) := by
    apply UInt32.toBitVec_inj.mp
    exact roundUp_bits _ _
  rw [← bits, UInt32.add_assoc, UInt32.sub_add_cancel]

/-- `ROUND_UP_POW2` of the end of the kernel, over the integers. -/
def kernelEnd (m : Mem) (addr : Nat) : Nat :=
  (((pagesize m addr).toNat + (kernelsize m addr).toNat - 1) ||| ((pagesize m addr).toNat - 1)) + 1

def ramdiskOffset (m : Mem) (addr : Nat) : Nat :=
  (roundUpPow2 (pagesize m addr + kernelsize m addr) (pagesize m addr)).toNat

section
variable {m : Mem} {addr : Nat}

theorem le_kernelEnd : (pagesize m addr).toNat + (kernelsize m addr).toNat ≤ kernelEnd m addr := by
  have := Nat.left_le_or (n := (pagesize m addr).toNat + (kernelsize m addr).toNat - 1)
    (m := (pagesize m addr).toNat - 1)
  unfold kernelEnd
  omega

theorem ramdiskOffset_eq (large : 0 < (pagesize m addr).toNat)
    (fits : (pagesize m addr).toNat + (kernelsize m addr).toNat < 2 ^ 32) :
    ramdiskOffset m addr = kernelEnd m addr % 2 ^ 32 := by
  have one : (1 : UInt32) ≤ pagesize m addr := by
    rw [UInt32.le_iff_toNat_le]
    exact large
  have sum : (pagesize m addr + kernelsize m addr).toNat = (pagesize m addr).toNat + (kernelsize m addr).toNat := by
    rw [UInt32.toNat_add, Nat.mod_eq_of_lt fits]
  have one' : (1 : UInt32) ≤ pagesize m addr + kernelsize m addr := by
    rw [UInt32.le_iff_toNat_le, sum]
    exact Nat.le_trans large (Nat.le_add_right _ _)
  unfold ramdiskOffset kernelEnd
  rw [roundUpPow2_eq, UInt32.toNat_add, UInt32.toNat_or, UInt32.toNat_sub_of_le _ _ one,
    UInt32.toNat_sub_of_le _ _ one', sum]
  rfl

end

structure Inside (m : Mem) (addr : Nat) (imgSize : UInt32) : Prop where
  kernel : (pagesize m addr).toNat + (kernelsize m addr).toNat ≤ imgSize.toNat
  ramdisk : ramdiskOffset m addr + (ramdisksize m addr).toNat ≤ imgSize.toNat
  apart : (pagesize m addr).toNat + (kernelsize m addr).toNat ≤ ramdiskOffset m addr

theorem inside_iff {m : Mem} {addr : Nat} {imgSize : UInt32} (large : 0 < (pagesize m addr).toNat) :
    Inside m addr imgSize ↔ kernelEnd m addr + (ramdisksize m addr).toNat ≤ imgSize.toNat := by
  have past : (pagesize m addr).toNat + (kernelsize m addr).toNat ≤ kernelEnd m addr := le_kernelEnd
  have small := imgSize.toNat_lt
  constructor
  · intro inside
    have fits : (pagesize m addr).toNat + (kernelsize m addr).toNat < 2 ^ 32 := Nat.lt_of_le_of_lt inside.kernel small
    have offset := ramdiskOffset_eq large fits
    have apart := inside.apart
    have ramdisk := inside.ramdisk
    have bound : kernelEnd m addr ≤ 2 ^ 32 := by
      have first : (pagesize m addr).toNat + (kernelsize m addr).toNat - 1 < 2 ^ 32 := by omega
      have second : (pagesize m addr).toNat - 1 < 2 ^ 32 := by omega
      exact Nat.or_lt_two_pow first second
    -- where the rounding wraps, the ramdisk would start at 0
    rcases Nat.lt_or_eq_of_le bound with short | full
    · rw [Nat.mod_eq_of_lt short] at offset
      omega
    · rw [full, Nat.mod_self] at offset
      omega
  · intro room
    have fits : (pagesize m addr).toNat + (kernelsize m addr).toNat < 2 ^ 32 := by omega
    have offset := ramdiskOffset_eq large fits
    rw [Nat.mod_eq_of_lt (by omega)] at offset
    exact ⟨by omega, by omega, by omega⟩

section
variable {σ : Type} (P : Platform σ) {s t : State σ}

theorem run_bind_get {α : Type} (f : State σ → LoadM σ α) : (get >>= f).run s = (f s).run s :=
  run_bind_ok rfl

theorem run_bind_modify {α : Type} (f : State σ → State σ) (c : Unit → LoadM σ α) :
    (modify f >>= c).run s = (c ()).run (f s) := run_bind_ok rfl

theorem run_refuse {α : Type} (bad : Bool) (e : Error) (c : LoadM σ α) :
    (refuse bad e >>= fun _ => c).run s = if bad then (.error e, s) else c.run s := by
  cases bad <;> rfl

theorem run_extractKernel (header : hasBootImgHdr s.mem s.bootImgLoadAddr = true) : (extractKernel P).run s =
      if P.maxKernelImageSize < kernelsize s.mem s.bootImgLoadAddr then (.error (.own .tooLarge 0), s) else
        let payload := s.bootImgLoadAddr + (pagesize s.mem s.bootImgLoadAddr).toNat
        let size := kernelsize s.mem s.bootImgLoadAddr
        let entry := P.kernelLoadAddr + P.kernelTextOffset
        let u := { s with kernelEntryPoint := entry }
        if P.isCompressedContent payload s.mem then
          (onMemory (P.doDecompress payload size entry P.maxKernelImageSize)).run u
        else (.ok (), { u with mem := blit s.mem entry s.mem payload size.toNat }) := by
  have payload : kernelPayload P s = (s.bootImgLoadAddr + (pagesize s.mem s.bootImgLoadAddr).toNat,
      kernelsize s.mem s.bootImgLoadAddr, P.kernelTextOffset) := if_pos header
  unfold extractKernel
  rw [run_bind_get, payload]
  dsimp only
  rw [run_refuse]
  by_cases large : P.maxKernelImageSize < kernelsize s.mem s.bootImgLoadAddr
  · rw [if_pos (decide_eq_true large), if_pos large]
  · rw [if_neg (by simpa using large), if_neg large, run_bind_modify]
    split <;> rfl

theorem run_extractRamdisk : (extractRamdisk P).run s = let addr := s.bootImgLoadAddr
      let size := (ramdisksize s.mem addr).toNat
      let offset := addr + ramdiskOffset s.mem addr
      if P.ramdiskMaxSize < ramdisksize s.mem addr then
        (.error (.own .tooLarge 1), { s with ramdiskLoad := P.ramdiskLoadAddr })
      else (.ok (), { s with
        ramdiskLoad := P.ramdiskLoadAddr
        ramdiskSize := size
        mem := if offset ≠ P.ramdiskLoadAddr then blit s.mem P.ramdiskLoadAddr s.mem offset size else s.mem }) := by
  unfold extractRamdisk
  rw [run_bind_modify, run_bind_get]
  dsimp only
  rw [run_refuse]
  by_cases large : P.ramdiskMaxSize < ramdisksize s.mem s.bootImgLoadAddr
  · rw [if_pos (decide_eq_true large), if_pos large]
  · rw [if_neg (by simpa using large), if_neg large, run_bind_modify]
    unfold onlyIf
    by_cases moved : s.bootImgLoadAddr + ramdiskOffset s.mem s.bootImgLoadAddr = P.ramdiskLoadAddr
    · have still : decide (s.bootImgLoadAddr + ramdiskOffset s.mem s.bootImgLoadAddr ≠ P.ramdiskLoadAddr) = false :=
        decide_eq_false (not_not.mpr moved)
      rw [ramdiskOffset] at still
      rw [still, if_neg (not_not.mpr moved)]
      rfl
    · have copied : decide (s.bootImgLoadAddr + ramdiskOffset s.mem s.bootImgLoadAddr ≠ P.ramdiskLoadAddr) = true :=
        decide_eq_true moved
      rw [ramdiskOffset] at copied
      rw [copied, if_pos moved]
      rfl

structure SameHeader (s t : State σ) : Prop where
  addr : t.bootImgLoadAddr = s.bootImgLoadAddr
  bytes : AgreeOn s.mem t.mem s.bootImgLoadAddr (s.bootImgLoadAddr + androidHeaderSize)

theorem SameHeader.field (same : SameHeader s t) {offset : Nat} (inside : offset + 4 ≤ androidHeaderSize) :
    field t.mem t.bootImgLoadAddr offset = field s.mem s.bootImgLoadAddr offset := by
  unfold Linuxboot.field
  rw [same.addr, readLE_congr (same.bytes.mono (by omega) (by omega))]

variable {imgSize : UInt32}

theorem SameHeader.inside (same : SameHeader s t) :
    Inside t.mem t.bootImgLoadAddr imgSize ↔ Inside s.mem s.bootImgLoadAddr imgSize := by
  have pages : pagesize t.mem t.bootImgLoadAddr = pagesize s.mem s.bootImgLoadAddr := same.field (by decide)
  have kernel : kernelsize t.mem t.bootImgLoadAddr = kernelsize s.mem s.bootImgLoadAddr := same.field (by decide)
  have ramdisk : ramdisksize t.mem t.bootImgLoadAddr = ramdisksize s.mem s.bootImgLoadAddr := same.field (by decide)
  constructor
  · rintro ⟨first, second, third⟩
    unfold ramdiskOffset at second third
    rw [pages, kernel] at first second third
    rw [ramdisk] at second
    exact ⟨first, second, third⟩
  · rintro ⟨first, second, third⟩
    unfold ramdiskOffset at second third
    rw [← pages, ← kernel] at first second third
    rw [← ramdisk] at second
    exact ⟨first, second, third⟩

theorem verified_header {m : Mem} {addr : Nat}
    (verified : tegrablVerifyBootImgHdr m addr imgSize = .ok ()) :
    hasBootImgHdr m addr = true ∧ 0 < (pagesize m addr).toNat := by
  unfold tegrablVerifyBootImgHdr at verified
  by_cases magic : hasBootImgHdr m addr = true
  · by_cases small : (pagesize m addr).toNat < androidHeaderSize
    · simp only [magic, small, Bool.not_true, Bool.false_eq_true, if_false, if_true] at verified
      cases verified
    · have header : 0 < androidHeaderSize := by decide
      exact ⟨magic, by omega⟩
  · simp only [magic, Bool.not_false, if_true] at verified
    cases verified

structure Taken (imgSize : UInt32) (s : State σ) : Prop where
  verified : tegrablVerifyBootImgHdr s.mem s.bootImgLoadAddr imgSize = .ok ()
  kernel : kernelsize s.mem s.bootImgLoadAddr ≤ P.maxKernelImageSize
  unpacked : P.isCompressedContent (s.bootImgLoadAddr + (pagesize s.mem s.bootImgLoadAddr).toNat) s.mem = true →
    (P.doDecompress (s.bootImgLoadAddr + (pagesize s.mem s.bootImgLoadAddr).toNat)
      (kernelsize s.mem s.bootImgLoadAddr) (P.kernelLoadAddr + P.kernelTextOffset) P.maxKernelImageSize
      s.mem s.env).1 = .ok ()
  ramdisk : ramdisksize s.mem s.bootImgLoadAddr ≤ P.ramdiskMaxSize

def Bounded (imgSize : UInt32) (s : State σ) : Prop :=
  ∀ s' t t' : State σ, tegrablVerifyBootImgHdr s.mem s.bootImgLoadAddr imgSize = .ok () →
    (extractKernel P).run s = (.ok (), s') → SameHeader s t → (extractRamdisk P).run t = (.ok (), t') →
      Inside t.mem t.bootImgLoadAddr imgSize

theorem extractKernel_ok (header : hasBootImgHdr s.mem s.bootImgLoadAddr = true) :
    (∃ s', (extractKernel P).run s = (.ok (), s')) ↔ kernelsize s.mem s.bootImgLoadAddr ≤ P.maxKernelImageSize ∧
        (P.isCompressedContent (s.bootImgLoadAddr + (pagesize s.mem s.bootImgLoadAddr).toNat) s.mem = true →
          (P.doDecompress (s.bootImgLoadAddr + (pagesize s.mem s.bootImgLoadAddr).toNat)
            (kernelsize s.mem s.bootImgLoadAddr) (P.kernelLoadAddr + P.kernelTextOffset) P.maxKernelImageSize
            s.mem s.env).1 = .ok ()) := by
  rw [run_extractKernel P header]
  by_cases large : P.maxKernelImageSize < kernelsize s.mem s.bootImgLoadAddr
  · rw [if_pos large]
    constructor
    · rintro ⟨s', ended⟩
      cases ended
    · rintro ⟨small, -⟩
      exact absurd small (UInt32.not_le.mpr large)
  · rw [if_neg large]
    dsimp only
    split
    · rename_i compressed
      unfold onMemory
      rw [run_call]
      constructor
      · rintro ⟨s', ended⟩
        refine ⟨UInt32.not_lt.mp large, fun _ => ?_⟩
        cases result : (P.doDecompress (s.bootImgLoadAddr + (pagesize s.mem s.bootImgLoadAddr).toNat)
          (kernelsize s.mem s.bootImgLoadAddr) (P.kernelLoadAddr + P.kernelTextOffset) P.maxKernelImageSize
          s.mem s.env).1 with
        | error e =>
          rw [result] at ended
          cases ended
        | ok done => rfl
      · rintro ⟨-, unpacked⟩
        rw [unpacked compressed]
        exact ⟨_, rfl⟩
    · rename_i plain
      exact ⟨fun _ => ⟨UInt32.not_lt.mp large, fun compressed => absurd compressed plain⟩, fun _ => ⟨_, rfl⟩⟩

theorem extractRamdisk_ok :
    (∃ t, (extractRamdisk P).run s = (.ok (), t)) ↔ ramdisksize s.mem s.bootImgLoadAddr ≤ P.ramdiskMaxSize := by
  rw [run_extractRamdisk]
  by_cases large : P.ramdiskMaxSize < ramdisksize s.mem s.bootImgLoadAddr
  · rw [if_pos large]
    constructor
    · rintro ⟨t, ended⟩
      cases ended
    · intro small
      exact absurd small (UInt32.not_le.mpr large)
  · rw [if_neg large]
    exact ⟨fun _ => UInt32.not_lt.mp large, fun _ => ⟨_, rfl⟩⟩

theorem Bounded.room (bounded : Bounded P imgSize s) (taken : Taken P imgSize s) :
    kernelEnd s.mem s.bootImgLoadAddr + (ramdisksize s.mem s.bootImgLoadAddr).toNat ≤ imgSize.toNat := by
  obtain ⟨header, large⟩ := verified_header taken.verified
  obtain ⟨s', kernel⟩ := (extractKernel_ok P header).mpr ⟨taken.kernel, taken.unpacked⟩
  obtain ⟨t', ramdisk⟩ := (extractRamdisk_ok P).mpr taken.ramdisk
  have same : SameHeader s s := ⟨rfl, fun _ _ _ => rfl⟩
  exact (inside_iff large).mp (bounded s' s t' taken.verified kernel same ramdisk)

/-- Where the extraction is done, kernel and ramdisk are inside the image exactly if they fit in without wrapping. -/
theorem header_bounded (imgSize : UInt32) (s : State σ) :
    Bounded P imgSize s ↔ (Taken P imgSize s → kernelEnd s.mem s.bootImgLoadAddr +
      (ramdisksize s.mem s.bootImgLoadAddr).toNat ≤ imgSize.toNat) := by
  constructor
  · intro bounded taken
    exact bounded.room P taken
  · intro room s' t t' verified kernel same ramdisk
    obtain ⟨header, large⟩ := verified_header verified
    obtain ⟨small, unpacked⟩ := (extractKernel_ok P header).mp ⟨s', kernel⟩
    have small' := (extractRamdisk_ok P).mp ⟨t', ramdisk⟩
    rw [show ramdisksize t.mem t.bootImgLoadAddr = ramdisksize s.mem s.bootImgLoadAddr from same.field (by decide)]
      at small'
    exact same.inside.mpr ((inside_iff large).mpr (room ⟨verified, small, unpacked, small'⟩))

end

def sizedHeader (kernel ramdisk second page : UInt32) : List UInt8 :=
  androidMagic ++ leDigits 4 kernel.toNat ++ List.replicate 4 0 ++ leDigits 4 ramdisk.toNat ++ List.replicate 4 0 ++
    leDigits 4 second.toNat ++ List.replicate 8 0 ++ leDigits 4 page.toNat

def sizedState (kernel ramdisk second page : UInt32) : State Unit :=
  { blankState with mem := storeBytes (fun _ => 0) 0 (sizedHeader kernel ramdisk second page) }

/-- The rounded kernel pushes the ramdisk out of the image, or the sum of the sizes wraps. -/
theorem header_unbounded : ¬ Bounded (samplePlatform (.ok ())) 8193 (sizedState 1 4096 0 4096) ∧
      ¬ Bounded (samplePlatform (.ok ())) 4096 (sizedState 1 4096 0xFFFFE001 4096) := by
  constructor
  · intro bounded
    have taken : Taken (samplePlatform (.ok ())) 8193 (sizedState 1 4096 0 4096) :=
      ⟨rfl, by decide, fun _ => rfl, by decide⟩
    exact absurd (bounded.room _ taken) (by decide)
  · intro bounded
    have taken : Taken (samplePlatform (.ok ())) 4096 (sizedState 1 4096 0xFFFFE001 4096) :=
      ⟨rfl, by decide, fun _ => rfl, by decide⟩
    exact absurd (bounded.room _ taken) (by decide)

end Cboot.Linuxboot
