import MirageNavi.Store.Config
import MirageNavi.Dns.Records

/-! # The captive-portal handler

`/generate_204` answers captive-portal probes with 204 No Content. It echoes the request's
`X-Tailscale-Challenge` header back in `X-Tailscale-Response`, prefixed by `response `, when the
challenge is at most 64 bytes and `strings.IndexFunc` finds no rune outside a small set of ASCII
characters. `IndexFunc` reads the string rune by rune, so the check is on runes while the length
bound is on bytes; since every allowed character is ASCII, both come to a check on bytes.

The HTTPS server writes its error log through `logFilter`, which drops the lines that end with one
of five endings, each of them ending the line with a newline, and reports every line as written.
-/

namespace MirageNavi.Http

open MirageNavi.Store

set_option autoImplicit false

/-- `isChallengeChar`, on a code point: a letter, a digit, `.`, `-` or `_`. -/
def isChallengeChar (c : Nat) : Bool :=
  (0x61 ≤ c && c ≤ 0x7A) || (0x41 ≤ c && c ≤ 0x5A) || (0x30 ≤ c && c ≤ 0x39) ||
    c == 0x2E || c == 0x2D || c == 0x5F

/-- `isChallengeChar` on the rune `IndexFunc` decodes. An ASCII byte is its own code point; a
well-formed multi-byte character is at least U+0080 and `RuneError` is U+FFFD, and no challenge
character is that large. -/
def runeIsChallenge : Rune → Bool
  | .ascii b => isChallengeChar b.toNat
  | .wide _ | .error _ => false

/-- `serveNoContent`: the status it writes and the `X-Tailscale-Response` value it sets, given the
`X-Tailscale-Challenge` value, empty when the request has none. -/
def serveNoContent (challenge : List UInt8) : Nat × Option (List UInt8) :=
  let badChar := (runes challenge).any fun r => !runeIsChallenge r
  (204, if challenge ≠ [] ∧ challenge.length ≤ 64 ∧ !badChar then some (ascii "response " ++ challenge)
    else none)

theorem lt_of_isChallengeChar {b : UInt8} (h : isChallengeChar b.toNat = true) : b < 0x80 := by
  have hLe : b.toNat ≤ 0x7A := by
    simp only [isChallengeChar, Bool.or_eq_true, Bool.and_eq_true, decide_eq_true_eq,
      beq_iff_eq] at h
    omega
  show b.toNat < 0x80
  omega

theorem runes_ascii {s : List UInt8} (hs : ∀ b ∈ s, b < 0x80) : runes s = s.map Rune.ascii := by
  induction s with
  | nil => rfl
  | cons b s ih =>
    simp only [List.mem_cons, forall_eq_or_imp] at hs
    rw [runes_cons_ascii b s hs.1, ih hs.2, List.map_cons]

theorem runes_challenge (s : List UInt8) :
    ((runes s).any fun r => !runeIsChallenge r) = false ↔ ∀ b ∈ s, isChallengeChar b.toNat = true := by
  constructor
  · intro h b hb
    rw [← runes_bytes s] at hb
    obtain ⟨r, hr, hbr⟩ := List.mem_flatMap.1 hb
    have hChallenge : runeIsChallenge r = true := by
      simpa using List.any_eq_false.1 h r hr
    cases r with
    | ascii a =>
      obtain rfl : b = a := by simpa [Rune.bytes] using hbr
      exact hChallenge
    | wide c => cases hChallenge
    | error a => cases hChallenge
  · intro h
    rw [runes_ascii fun b hb => lt_of_isChallengeChar (h b hb)]
    simpa [runeIsChallenge] using h

theorem serveNoContent_echo (challenge : List UInt8) :
    (serveNoContent challenge).1 = 204 ∧
      (serveNoContent challenge).2 =
        if challenge ≠ [] ∧ challenge.length ≤ 64 ∧ ∀ b ∈ challenge, isChallengeChar b.toNat = true
        then some (ascii "response " ++ challenge) else none := by
  refine ⟨rfl, ?_⟩
  simp only [serveNoContent, ← runes_challenge, Bool.not_eq_true']

example : (serveNoContent [0x61, 0x0D, 0x0A, 0x62]).2 = none := by decide

/-! ## The server's error log -/

/-- The endings of the lines `logFilter` drops. -/
def quietEndings : List (List UInt8) :=
  [ascii ": EOF\n", ascii ": i/o timeout\n", ascii ": read: connection reset by peer\n",
    ascii ": remote error: tls: bad certificate\n",
    ascii ": tls: first record does not look like a TLS handshake\n"]

/-- `logFilter.Write`: the line it passes to `log.Printf`, if any, and the count it returns with a
nil error. -/
def logFilterWrite (p : List UInt8) : Option (List UInt8) × Nat :=
  (if quietEndings.any (Dns.hasSuffix p) then none else some p, p.length)

theorem getLast?_of_hasSuffix {p e : List UInt8} (h : Dns.hasSuffix p e = true) (he : e ≠ []) :
    p.getLast? = e.getLast? := by
  simp only [Dns.hasSuffix, Bool.and_eq_true, decide_eq_true_eq, beq_iff_eq] at h
  rw [← List.take_append_drop (p.length - e.length) p, h.2, List.getLast?_append_of_ne_nil _ he]

theorem logFilterWrite_spec (p : List UInt8) :
    (logFilterWrite p).2 = p.length ∧
      ((logFilterWrite p).1 = none ↔ ∃ e ∈ quietEndings, Dns.hasSuffix p e = true) ∧
      (p.getLast? ≠ some 0x0A → (logFilterWrite p).1 = some p) := by
  have hNewline : ∀ e ∈ quietEndings, e ≠ [] ∧ e.getLast? = some 0x0A := by decide
  refine ⟨rfl, by simp [logFilterWrite], fun hLast => ?_⟩
  simp only [logFilterWrite, List.any_eq_true, ite_eq_right_iff, reduceCtorEq, imp_false]
  rintro ⟨e, he, hSuffix⟩
  exact hLast ((getLast?_of_hasSuffix hSuffix (hNewline e he).1).trans (hNewline e he).2)

end MirageNavi.Http
