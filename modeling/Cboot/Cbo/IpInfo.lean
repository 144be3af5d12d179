import Mathlib.Data.List.Basic

/-!
`parse_ip_info` of `lib/cbo/tegrabl_cbo.c`. The addresses of a static configuration are read one after the other, and one
`err` is carried along to what is done in the end.
-/

namespace Cboot.Cbo.IpInfo

abbrev Bytes := List UInt8

def ipLen : Nat := 4

def zeros : Bytes := List.replicate ipLen 0

/-- `struct ip_info`. -/
structure Info where
  isDhcpEnabled : Bool
  staticIp : Bytes
  ipNetmask : Bytes
  ipGateway : Bytes
  tftpServerIp : Bytes
  deriving DecidableEq, Repr

structure Node where
  tftpServerIp : Option Bytes
  dhcpEnabled : Option Bytes
  staticIp : Option Bytes
  ipNetmask : Option Bytes
  ipGateway : Option Bytes

/-- What `tegrabl_dt_get_prop_u8_array` leaves: the array, and how many bytes were found. -/
structure Found where
  res : Bytes
  count : Option Nat

def getPropU8Array (prop : Option Bytes) (nmemb : Nat) (res : Bytes) : Found :=
  match prop with
  | none => ⟨res, none⟩
  | some prop =>
    let targetNum := if nmemb = 0 then prop.length else min nmemb prop.length
    ⟨prop.take targetNum ++ res.drop targetNum, some targetNum⟩

/-- What stands at `skip_static_ip_parse`. -/
def skip (err : Bool) (ip : Info) : Info :=
  if err then { ip with staticIp := zeros, ipNetmask := zeros, ipGateway := zeros } else ip

def parseIpInfo (node : Node) (ip : Info) : Info :=
  let tftp := getPropU8Array node.tftpServerIp ipLen ip.tftpServerIp
  let ip := { ip with tftpServerIp := if tftp.count.isSome ∧ tftp.count ≠ some ipLen then zeros else tftp.res }
  if node.dhcpEnabled.isSome then skip tftp.count.isNone { ip with isDhcpEnabled := true }
  else
    let ip := { ip with isDhcpEnabled := false }
    let found := getPropU8Array node.staticIp ipLen ip.staticIp
    let ip := { ip with staticIp := found.res }
    if found.count ≠ some ipLen then skip found.count.isNone ip
    else
      let found := getPropU8Array node.ipNetmask ipLen ip.ipNetmask
      let ip := { ip with ipNetmask := found.res }
      if found.count ≠ some ipLen then skip found.count.isNone ip
      else
        let found := getPropU8Array node.ipGateway ipLen ip.ipGateway
        skip found.count.isNone { ip with ipGateway := found.res }

def zeroed : Info := ⟨false, zeros, zeros, zeros, zeros⟩

def Exact (prop : Option Bytes) (value : Bytes) : Prop := prop = some value ∧ value.length = ipLen

structure AllOrNothing (node : Node) (ip : Info) : Prop where
  static : (Exact node.staticIp ip.staticIp ∧ Exact node.ipNetmask ip.ipNetmask ∧ Exact node.ipGateway ip.ipGateway) ∨
    (ip.staticIp = zeros ∧ ip.ipNetmask = zeros ∧ ip.ipGateway = zeros)
  tftp : Exact node.tftpServerIp ip.tftpServerIp ∨ ip.tftpServerIp = zeros

def Full (prop : Option Bytes) : Prop := ∃ v, prop = some v ∧ ipLen ≤ v.length

def Blank (prop : Option Bytes) : Prop := ∀ v, prop = some v → ∀ b ∈ v.take ipLen, b = 0

def FourBytes (prop : Option Bytes) : Prop := ∃ v, prop = some v ∧ v.length = ipLen

def AbsentFirst (node : Node) : Prop :=
  node.staticIp = none ∨ (Full node.staticIp ∧ (node.ipNetmask = none ∨ (Full node.ipNetmask ∧ node.ipGateway = none)))

def AllBlank (node : Node) : Prop :=
  Blank node.staticIp ∧ (Full node.staticIp → Blank node.ipNetmask ∧ (Full node.ipNetmask → Blank node.ipGateway))

structure Meets (node : Node) : Prop where
  tftp : node.tftpServerIp = none ∨ (∃ v, node.tftpServerIp = some v ∧ v.length ≤ ipLen) ∨ Blank node.tftpServerIp
  static : node.dhcpEnabled ≠ none ∨ AbsentFirst node ∨
    (FourBytes node.staticIp ∧ FourBytes node.ipNetmask ∧ FourBytes node.ipGateway) ∨ AllBlank node

section
variable {node : Node} {prop : Option Bytes} {v : Bytes}

inductive Reads (prop : Option Bytes) : Found → Prop
  | absent : prop = none → Reads prop ⟨zeros, none⟩
  | short {res : Bytes} {n : Nat} : prop ≠ none → ¬ Full prop → n ≠ ipLen → (res = zeros ↔ Blank prop) →
      Reads prop ⟨res, some n⟩
  | full {v : Bytes} : prop = some v → ipLen ≤ v.length → (v.take ipLen = zeros ↔ Blank prop) →
      Reads prop ⟨v.take ipLen, some ipLen⟩

theorem padded_zeros (v : Bytes) :
    v.take (min ipLen v.length) ++ zeros.drop (min ipLen v.length) = zeros ↔ ∀ b ∈ v.take ipLen, b = 0 := by
  have short : v.take (min ipLen v.length) = v.take ipLen := by
    rw [← List.take_take, List.take_length]
  have length : (v.take ipLen).length = min ipLen v.length := List.length_take
  have split : zeros = List.replicate (min ipLen v.length) 0 ++ zeros.drop (min ipLen v.length) := by
    rw [zeros, List.drop_replicate, List.replicate_append_replicate]
    congr 1
    omega
  rw [short]
  constructor
  · intro same
    rw [split, List.drop_left' List.length_replicate] at same
    have taken := List.append_cancel_right same
    rw [taken]
    exact fun b member => List.eq_of_mem_replicate member
  · intro blank
    have taken : v.take ipLen = List.replicate (min ipLen v.length) 0 := List.eq_replicate_iff.mpr ⟨length, blank⟩
    rw [taken, ← split]

theorem reads (prop : Option Bytes) : Reads prop (getPropU8Array prop ipLen zeros) := by
  cases prop with
  | none => exact .absent rfl
  | some v =>
    have blank : Blank (some v) ↔ ∀ b ∈ v.take ipLen, b = 0 := by simp [Blank]
    have padded := (padded_zeros v).trans blank.symm
    by_cases enough : ipLen ≤ v.length
    · rw [Nat.min_eq_left enough] at padded
      have nothing : zeros.drop ipLen = [] := rfl
      rw [nothing, List.append_nil] at padded
      have found : getPropU8Array (some v) ipLen zeros = ⟨v.take ipLen, some ipLen⟩ := by
        simp [getPropU8Array, Nat.min_eq_left enough, show ipLen ≠ 0 by decide, nothing]
      rw [found]
      exact .full rfl enough padded
    · refine .short (by simp) ?_ ?_ padded
      · rintro ⟨w, same, long⟩
        rw [Option.some.inj same] at enough
        exact enough long
      · rw [if_neg (by decide)]
        omega

theorem exact_full {value : Bytes} (exact : Exact prop value) : Full prop :=
  ⟨value, exact.1, Nat.le_of_eq exact.2.symm⟩

theorem fourBytes_full (four : FourBytes prop) : Full prop :=
  let ⟨value, same, length⟩ := four
  exact_full (show Exact prop value from ⟨same, length⟩)

theorem not_exact (few : ¬ Full prop) (value : Bytes) : ¬ Exact prop value := mt exact_full few

theorem not_fourBytes (few : ¬ Full prop) : ¬ FourBytes prop := mt fourBytes_full few

theorem exact_take (present : prop = some v) : Exact prop (v.take ipLen) ↔ FourBytes prop := by
  constructor
  · rintro ⟨same, length⟩
    exact ⟨_, same, length⟩
  · rintro ⟨w, same, length⟩
    obtain rfl : v = w := Option.some.inj (present.symm.trans same)
    rw [List.take_of_length_le (Nat.le_of_eq length)]
    exact ⟨same, length⟩

theorem static_iff (none : node.dhcpEnabled = .none) (ip : Info)
    (addresses : ip.staticIp = zeros ∧ ip.ipNetmask = zeros ∧ ip.ipGateway = zeros) :
    ((Exact node.staticIp (parseIpInfo node ip).staticIp ∧ Exact node.ipNetmask (parseIpInfo node ip).ipNetmask ∧
        Exact node.ipGateway (parseIpInfo node ip).ipGateway) ∨
      ((parseIpInfo node ip).staticIp = zeros ∧ (parseIpInfo node ip).ipNetmask = zeros ∧
        (parseIpInfo node ip).ipGateway = zeros)) ↔
    (AbsentFirst node ∨ (FourBytes node.staticIp ∧ FourBytes node.ipNetmask ∧ FourBytes node.ipGateway) ∨
      AllBlank node) := by
  obtain ⟨static, netmask, gateway⟩ := addresses
  have first := reads node.staticIp
  have second := reads node.ipNetmask
  have third := reads node.ipGateway
  simp only [parseIpInfo, none, static, netmask, gateway]
  generalize getPropU8Array node.staticIp ipLen zeros = found at first
  generalize getPropU8Array node.ipNetmask ipLen zeros = found' at second
  generalize getPropU8Array node.ipGateway ipLen zeros = found'' at third
  cases first with
  | absent missing => simp [skip, AbsentFirst, missing]
  | short present few count blank =>
    simp [skip, count, AbsentFirst, AllBlank, present, few, not_exact few, not_fourBytes few, blank]
  | full present enough blank =>
    have filled : Full node.staticIp := ⟨_, present, enough⟩
    have exact := exact_take present
    have missing : node.staticIp ≠ .none := by simp [present]
    cases second with
    | absent absent => simp [skip, AbsentFirst, filled, absent]
    | short present' few count blank' =>
      simp [skip, count, AbsentFirst, AllBlank, missing, filled, present', few, not_exact few, not_fourBytes few, blank,
        blank']
    | full present' enough' blank' =>
      have filled' : Full node.ipNetmask := ⟨_, present', enough'⟩
      have exact' := exact_take present'
      have missing' : node.ipNetmask ≠ .none := by simp [present']
      cases third with
      | absent absent => simp [skip, AbsentFirst, filled, filled', absent]
      | short present'' few count blank'' =>
        simp [skip, AbsentFirst, AllBlank, missing, filled, missing', filled', present'', not_exact few,
          not_fourBytes few, blank, blank', blank'']
      | full present'' enough'' blank'' =>
        have exact'' := exact_take present''
        have missing'' : node.ipGateway ≠ .none := by simp [present'']
        simp [skip, AbsentFirst, AllBlank, missing, filled, missing', filled', missing'', exact, exact', exact'', blank,
          blank', blank'']

theorem static_dhcp (present : node.dhcpEnabled ≠ none) (ip : Info)
    (addresses : ip.staticIp = zeros ∧ ip.ipNetmask = zeros ∧ ip.ipGateway = zeros) :
    (parseIpInfo node ip).staticIp = zeros ∧ (parseIpInfo node ip).ipNetmask = zeros ∧
      (parseIpInfo node ip).ipGateway = zeros := by
  have found : node.dhcpEnabled.isSome := Option.isSome_iff_ne_none.mpr present
  simp only [parseIpInfo, found, if_true, skip]
  split
  · exact ⟨rfl, rfl, rfl⟩
  · exact addresses

theorem parseIpInfo_tftp (node : Node) (ip : Info) : (parseIpInfo node ip).tftpServerIp =
      let tftp := getPropU8Array node.tftpServerIp ipLen ip.tftpServerIp
      if tftp.count.isSome ∧ tftp.count ≠ some ipLen then zeros else tftp.res := by
  simp only [parseIpInfo, skip]
  split_ifs <;> rfl

theorem tftp_iff (node : Node) (ip : Info) (zero : ip.tftpServerIp = zeros) :
    (Exact node.tftpServerIp (parseIpInfo node ip).tftpServerIp ∨ (parseIpInfo node ip).tftpServerIp = zeros) ↔
      (node.tftpServerIp = none ∨ (∃ v, node.tftpServerIp = some v ∧ v.length ≤ ipLen) ∨ Blank node.tftpServerIp) := by
  rw [parseIpInfo_tftp, zero]
  have server := reads node.tftpServerIp
  generalize getPropU8Array node.tftpServerIp ipLen zeros = found at server
  cases server with
  | absent missing => simp [missing]
  | short present few count blank =>
    obtain ⟨v, same⟩ := Option.ne_none_iff_exists'.mp present
    have length : v.length ≤ ipLen := by
      by_contra long
      exact few ⟨v, same, by omega⟩
    simp [count, same, length]
  | full present enough blank =>
    have four : FourBytes node.tftpServerIp ↔ ∃ v, node.tftpServerIp = some v ∧ v.length ≤ ipLen := by
      constructor
      · rintro ⟨v, same, length⟩
        exact ⟨v, same, Nat.le_of_eq length⟩
      · rintro ⟨v, same, length⟩
        cases Option.some.inj (present.symm.trans same)
        exact ⟨_, same, Nat.le_antisymm length enough⟩
    have missing : node.tftpServerIp ≠ none := by simp [present]
    simp only [ne_eq, not_true_eq_false, and_false, if_false, exact_take present, four, blank, missing, false_or]

end

/-- A too short address stays in part, unless an absent one is met before it. -/
theorem parseIpInfo_iff (node : Node) : AllOrNothing node (parseIpInfo node zeroed) ↔ Meets node := by
  have addresses : zeroed.staticIp = zeros ∧ zeroed.ipNetmask = zeros ∧ zeroed.ipGateway = zeros := ⟨rfl, rfl, rfl⟩
  have server := tftp_iff node zeroed rfl
  constructor
  · rintro ⟨static, tftp⟩
    refine ⟨server.mp tftp, ?_⟩
    by_cases dhcp : node.dhcpEnabled = none
    · exact .inr ((static_iff dhcp zeroed addresses).mp static)
    · exact .inl dhcp
  · rintro ⟨tftp, static⟩
    refine ⟨?_, server.mpr tftp⟩
    by_cases dhcp : node.dhcpEnabled = none
    · exact (static_iff dhcp zeroed addresses).mpr (static.resolve_left (not_not.mpr dhcp))
    · exact .inr (static_dhcp dhcp zeroed addresses)

/-- Without `dhcp-enabled`, with a netmask of two bytes. -/
theorem parseIpInfo_short : ¬ ∀ node, AllOrNothing node (parseIpInfo node zeroed) := by
  intro all
  have ⟨static, _⟩ := all ⟨none, none, some [10, 0, 0, 2], some [255, 255], some [10, 0, 0, 1]⟩
  obtain ⟨-, ⟨same, -⟩, -⟩ | ⟨first, -, -⟩ := static
  · revert same
    decide
  · revert first
    decide

end Cboot.Cbo.IpInfo
