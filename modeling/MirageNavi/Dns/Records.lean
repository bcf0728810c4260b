import MirageNavi.Store.Config

/-! # The name of the published A and AAAA records

With a DNS provider and `-a` or `-aaaa` set, `main` asks `findZoneByFQDN` for the zone of
`*hostname` and appends the records to that zone under the name
`strings.TrimSuffix(*hostname, "."+strings.TrimSuffix(zone, "."))`. A record's name is taken
relative to the zone it is appended to: the empty name and `@` stand for the zone's apex, any
other name `n` for `n.zone`. The trim takes `.zone` off only when the hostname ends with exactly
those bytes. It leaves the hostname whole when the hostname is the zone's apex, ends with a dot,
or spells the zone in another letter case than the zone's owner name, and the record then
stands for the hostname with the zone appended once more.
-/

namespace MirageNavi.Dns

open MirageNavi.Store

set_option autoImplicit false

/-- `strings.HasSuffix`. -/
def hasSuffix (s suffix : List UInt8) : Bool :=
  suffix.length ≤ s.length && s.drop (s.length - suffix.length) == suffix

/-- `strings.TrimSuffix`. -/
def trimSuffix (s suffix : List UInt8) : List UInt8 :=
  if hasSuffix s suffix then s.take (s.length - suffix.length) else s

/-- The `Name` of the A and AAAA records `main` appends to `zone`. -/
def recordName (hostname zone : List UInt8) : List UInt8 :=
  trimSuffix hostname (0x2E :: trimSuffix zone [0x2E])

/-- `dns.Fqdn`: the name with its trailing dot. -/
def toFqdn (name : List UInt8) : List UInt8 :=
  if name.getLast? = some 0x2E then name else name ++ [0x2E]

/-- The name a record named `name` in `zone` stands for. -/
def absoluteName (name zone : List UInt8) : List UInt8 :=
  if name = [] ∨ name = ascii "@" then zone else name ++ 0x2E :: zone

def toLower (b : UInt8) : UInt8 := if 0x41 ≤ b ∧ b ≤ 0x5A then b + 0x20 else b

/-- Two names that are equal up to ASCII letter case, as DNS compares names. -/
def foldEq (key name : List UInt8) : Bool := key.map toLower == name.map toLower

/-- Modelled from the spec: a zone `findZoneByFQDN` may return for `hostname`, a fully qualified
name that is the hostname or one of its ancestors, in any letter case. -/
def ZoneOf (hostname zone : List UInt8) : Prop :=
  zone.getLast? = some 0x2E ∧ ∃ p, foldEq (toFqdn hostname) (p ++ zone) = true ∧
    (p = [] ∨ p.getLast? = some 0x2E ∨ zone = [0x2E])

theorem hasSuffix_append (p suffix : List UInt8) : hasSuffix (p ++ suffix) suffix = true := by
  simp [hasSuffix]

theorem trimSuffix_append (p suffix : List UInt8) : trimSuffix (p ++ suffix) suffix = p := by
  simp [trimSuffix, hasSuffix_append]

theorem trimSuffix_of_not {s suffix : List UInt8} (h : hasSuffix s suffix = false) :
    trimSuffix s suffix = s := by
  simp [trimSuffix, h]

theorem toFqdn_length_le (name : List UInt8) : (toFqdn name).length ≤ name.length + 1 := by
  unfold toFqdn
  split <;> simp

theorem foldEq_of_length_ne {a b : List UInt8} (h : a.length ≠ b.length) : foldEq a b = false := by
  unfold foldEq
  rw [beq_eq_false_iff_ne]
  intro hEq
  exact h (by simpa using congrArg List.length hEq)

theorem recordName_appends_zone (hostname zone : List UInt8) (hZone : ZoneOf hostname zone)
    (hUnmatched : hasSuffix hostname (0x2E :: trimSuffix zone [0x2E]) = false)
    (hName : hostname ≠ [] ∧ hostname ≠ ascii "@") :
    recordName hostname zone = hostname ∧
      absoluteName (recordName hostname zone) zone = hostname ++ 0x2E :: zone ∧
      foldEq (absoluteName (recordName hostname zone) zone) (toFqdn hostname) = false := by
  have hName' : recordName hostname zone = hostname := trimSuffix_of_not hUnmatched
  have hAbs : absoluteName hostname zone = hostname ++ 0x2E :: zone := if_neg (by tauto)
  have hZoneLen : 0 < zone.length :=
    List.length_pos.2 fun h => by simpa [h] using hZone.1
  refine ⟨hName', by rw [hName', hAbs], ?_⟩
  rw [hName', hAbs]
  apply foldEq_of_length_ne
  have := toFqdn_length_le hostname
  simp only [List.length_append, List.length_cons]
  omega

theorem apex_record_doubles_zone :
    ZoneOf (ascii "example.com") (ascii "example.com.") ∧
      hasSuffix (ascii "example.com") (0x2E :: trimSuffix (ascii "example.com.") [0x2E]) = false ∧
      (ascii "example.com" ≠ [] ∧ ascii "example.com" ≠ ascii "@") ∧
      recordName (ascii "example.com") (ascii "example.com.") = ascii "example.com" ∧
      absoluteName (recordName (ascii "example.com") (ascii "example.com."))
          (ascii "example.com.") = ascii "example.com" ++ 0x2E :: ascii "example.com." ∧
      foldEq (absoluteName (recordName (ascii "example.com") (ascii "example.com."))
          (ascii "example.com.")) (toFqdn (ascii "example.com")) = false :=
  have hZone : ZoneOf (ascii "example.com") (ascii "example.com.") :=
    ⟨by decide, [], by decide, .inl rfl⟩
  have hUnmatched :
      hasSuffix (ascii "example.com") (0x2E :: trimSuffix (ascii "example.com.") [0x2E]) = false := by
    decide
  have hName : ascii "example.com" ≠ [] ∧ ascii "example.com" ≠ ascii "@" := by decide
  ⟨hZone, hUnmatched, hName,
    recordName_appends_zone (ascii "example.com") (ascii "example.com.") hZone hUnmatched hName⟩

end MirageNavi.Dns
