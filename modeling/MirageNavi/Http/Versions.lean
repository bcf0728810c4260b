import Mathlib.Data.List.Basic
import Mathlib.Tactic.SplitIfs

/-! # The TLS version counters

`main` wraps the mux in a handler that, for a request over TLS, adds one to
`tlsRequestVersion[label]` and to `tlsActiveVersion[label]`, and defers adding minus one to
`tlsActiveVersion[label]` until the mux has served the request; the label names the negotiated
version. Each `Add` is atomic, and requests are served concurrently, so the counters move under
any interleaving of the handlers' steps. In every reachable state `tlsActiveVersion[label]` is
the number of handlers of that label between the two adds to it, and `tlsRequestVersion[label]`
the number that have passed the first add: the gauge never goes below zero, and it is back at
zero once every handler has returned. A `/derp` request stays in the handler for as long as its
client is connected.
-/

namespace MirageNavi.Http

set_option autoImplicit false

/-- The `switch r.TLS.Version`. -/
def versionLabel : Nat → String
  | 0x0301 => "1.0"
  | 0x0302 => "1.1"
  | 0x0303 => "1.2"
  | 0x0304 => "1.3"
  | _ => "unknown"

/-- Where a request's handler stands: entered, its label chosen; past
`tlsRequestVersion.Add(label, 1)`; in `mux.ServeHTTP`, after `tlsActiveVersion.Add(label, 1)` if
the request is over TLS; or returned, after the deferred `tlsActiveVersion.Add(label, -1)`. -/
inductive Phase
  | entered
  | counted
  | serving
  | done
  deriving DecidableEq, Repr

/-- A request's handler: `r.TLS.Version`, `none` for a request without TLS, and its phase. -/
structure Handler where
  version : Option Nat
  phase : Phase
  deriving DecidableEq, Repr

def Handler.label (h : Handler) : Option String := h.version.map versionLabel

@[simp] theorem Handler.label_phase (h : Handler) (p : Phase) :
    ({ h with phase := p } : Handler).label = h.label := rfl

/-- `tlsRequestVersion`, `tlsActiveVersion` and the handlers running. -/
structure Counters where
  requests : String → Int
  active : String → Int
  handlers : List Handler

def Counters.init : Counters := ⟨fun _ => 0, fun _ => 0, []⟩

/-- `Add(label, delta)` of a `metrics.LabelMap`, an `expvar.Map`: atomic. -/
def add (m : String → Int) (label : String) (delta : Int) : String → Int :=
  Function.update m label (m label + delta)

/-- A request arrives, or handler `i` takes its next step. -/
inductive HttpAct
  | arrive (version : Option Nat)
  | advance (i : Nat)
  deriving DecidableEq, Repr

def Counters.step (c : Counters) : HttpAct → Option Counters
  | .arrive version => some { c with handlers := c.handlers ++ [⟨version, .entered⟩] }
  | .advance i =>
    match c.handlers[i]? with
    | none => none
    | some h =>
      let moved (phase : Phase) := c.handlers.set i { h with phase := phase }
      match h.phase, h.label with
      | .entered, some l => some { c with requests := add c.requests l 1, handlers := moved .counted }
      | .entered, none => some { c with handlers := moved .serving }
      | .counted, some l => some { c with active := add c.active l 1, handlers := moved .serving }
      | .counted, none => none
      | .serving, some l => some { c with active := add c.active l (-1), handlers := moved .done }
      | .serving, none => some { c with handlers := moved .done }
      | .done, _ => none

def Counters.run (c : Counters) : List HttpAct → Option Counters
  | [] => some c
  | a :: as => (c.step a).bind fun c' => c'.run as

def Handler.inRequests (l : String) (h : Handler) : Bool := h.label = some l ∧ h.phase ≠ .entered

def Handler.inActive (l : String) (h : Handler) : Bool := h.label = some l ∧ h.phase = .serving

def Counters.Inv (c : Counters) : Prop :=
  ∀ l, c.active l = c.handlers.countP (Handler.inActive l) ∧
    c.requests l = c.handlers.countP (Handler.inRequests l)

def moved (hs : List Handler) (i : Nat) (h : Handler) (p : Phase) : List Handler :=
  hs.set i { h with phase := p }

theorem Counters.step_advance {c c' : Counters} {i : Nat} (h : c.step (.advance i) = some c') :
    ∃ hd, c.handlers[i]? = some hd ∧
      ((hd.phase = .entered ∧ ∃ l, hd.label = some l ∧ c'.requests = add c.requests l 1 ∧
          c'.active = c.active ∧ c'.handlers = moved c.handlers i hd .counted) ∨
        (hd.phase = .entered ∧ hd.label = none ∧ c'.requests = c.requests ∧
          c'.active = c.active ∧ c'.handlers = moved c.handlers i hd .serving) ∨
        (hd.phase = .counted ∧ ∃ l, hd.label = some l ∧ c'.requests = c.requests ∧
          c'.active = add c.active l 1 ∧ c'.handlers = moved c.handlers i hd .serving) ∨
        (hd.phase = .serving ∧ ∃ l, hd.label = some l ∧ c'.requests = c.requests ∧
          c'.active = add c.active l (-1) ∧ c'.handlers = moved c.handlers i hd .done) ∨
        (hd.phase = .serving ∧ hd.label = none ∧ c'.requests = c.requests ∧
          c'.active = c.active ∧ c'.handlers = moved c.handlers i hd .done)) := by
  simp only [Counters.step] at h
  split at h
  · cases h
  rename_i hd hi
  refine ⟨hd, hi, ?_⟩
  split at h <;> simp only [Option.some.injEq, reduceCtorEq] at h <;> subst h <;> simp_all [moved]

theorem countP_moved {hs : List Handler} {i : Nat} {h : Handler} (hi : hs[i]? = some h)
    (q : Handler → Bool) (p : Phase) :
    ((moved hs i h p).countP q : Int) =
      hs.countP q - (if q h then 1 else 0) + (if q { h with phase := p } then 1 else 0) := by
  obtain ⟨hLen, hGet⟩ := List.getElem?_eq_some_iff.1 hi
  rw [moved, List.countP_set q hs i _ hLen, hGet]
  have hPos : q h = true → 0 < hs.countP q := fun hq =>
    List.countP_pos_iff.2 ⟨h, hGet ▸ List.getElem_mem hLen, hq⟩
  by_cases hq : q h = true
  · have hp := hPos hq
    split_ifs <;> omega
  · split_ifs <;> omega

theorem add_apply (m : String → Int) (label : String) (delta : Int) (l : String) :
    add m label delta l = m l + if label = l then delta else 0 := by
  by_cases h : label = l
  · subst h
    simp [add]
  · simp [add, Function.update_apply, Ne.symm h, h]

section Moved

variable {hs : List Handler} {i : Nat} {hd : Handler} (hi : hs[i]? = some hd) (l : String) (p : Phase)
include hi

theorem countP_moved_active {m : String} (hLabel : hd.label = some m) :
    ((moved hs i hd p).countP (Handler.inActive l) : Int) = hs.countP (Handler.inActive l) -
      (if m = l ∧ hd.phase = .serving then 1 else 0) + (if m = l ∧ p = .serving then 1 else 0) := by
  rw [countP_moved hi]
  simp [Handler.inActive, hLabel]

theorem countP_moved_requests {m : String} (hLabel : hd.label = some m) :
    ((moved hs i hd p).countP (Handler.inRequests l) : Int) = hs.countP (Handler.inRequests l) -
      (if m = l ∧ hd.phase ≠ .entered then 1 else 0) + (if m = l ∧ p ≠ .entered then 1 else 0) := by
  rw [countP_moved hi]
  simp [Handler.inRequests, hLabel]

theorem countP_moved_plain (hLabel : hd.label = none) :
    ((moved hs i hd p).countP (Handler.inActive l) : Int) = hs.countP (Handler.inActive l) ∧
      ((moved hs i hd p).countP (Handler.inRequests l) : Int) = hs.countP (Handler.inRequests l) := by
  rw [countP_moved hi, countP_moved hi]
  simp [Handler.inActive, Handler.inRequests, hLabel]

end Moved

theorem Counters.Inv.init : Counters.init.Inv := fun _ => ⟨rfl, rfl⟩

theorem Counters.Inv.step {c c' : Counters} {a : HttpAct} (hI : c.Inv) (h : c.step a = some c') :
    c'.Inv := by
  cases a with
  | arrive version =>
    cases h
    intro l
    simp [List.countP_append, Handler.inActive, Handler.inRequests, hI l]
  | advance i =>
    obtain ⟨hd, hi, hCase⟩ := Counters.step_advance h
    intro l
    obtain ⟨hActive, hRequests⟩ := hI l
    rcases hCase with ⟨hPhase, m, hLabel, hR, hA, hH⟩ | ⟨hPhase, hLabel, hR, hA, hH⟩ |
        ⟨hPhase, m, hLabel, hR, hA, hH⟩ | ⟨hPhase, m, hLabel, hR, hA, hH⟩ | ⟨hPhase, hLabel, hR, hA, hH⟩
    all_goals
      rw [hR, hA, hH]
      first
        | exact ⟨by rw [(countP_moved_plain hi l _ hLabel).1]; exact hActive,
            by rw [(countP_moved_plain hi l _ hLabel).2]; exact hRequests⟩
        | exact ⟨by simp [countP_moved_active hi l _ hLabel, hPhase, add_apply, hActive] <;> split_ifs <;> omega,
            by simp [countP_moved_requests hi l _ hLabel, hPhase, add_apply, hRequests]⟩

theorem Counters.Inv.run {c c' : Counters} (hI : c.Inv) :
    ∀ {acts : List HttpAct}, c.run acts = some c' → c'.Inv
  | [], h => by cases h; exact hI
  | a :: as, h => by
    obtain ⟨c₁, h₁, h₂⟩ := Option.bind_eq_some.1 h
    exact (hI.step h₁).run h₂

theorem versionLabel_old {v : Nat} (h : versionLabel v = "1.0" ∨ versionLabel v = "1.1") :
    v = 0x0301 ∨ v = 0x0302 := by
  unfold versionLabel at h
  split at h <;> simp_all

theorem version_gauges (acts : List HttpAct) (c : Counters) (hRun : Counters.init.run acts = some c) :
    (∀ l, c.active l = c.handlers.countP (Handler.inActive l) ∧
        c.requests l = c.handlers.countP (Handler.inRequests l)) ∧
      (∀ l, 0 ≤ c.active l ∧ c.active l ≤ c.requests l) ∧
      ((∀ h ∈ c.handlers, h.phase = .done) → ∀ l, c.active l = 0) ∧
      ((∀ h ∈ c.handlers, ∀ v, h.version = some v → 0x0303 ≤ v) →
        c.requests "1.0" = 0 ∧ c.requests "1.1" = 0) := by
  have hI := Counters.Inv.init.run hRun
  refine ⟨hI, fun l => ?_, fun hDone l => ?_, fun hMin => ?_⟩
  · obtain ⟨hActive, hRequests⟩ := hI l
    have hLe : c.handlers.countP (Handler.inActive l) ≤ c.handlers.countP (Handler.inRequests l) :=
      List.countP_mono_left fun h _ hh => by
        simp only [Handler.inActive, Handler.inRequests, decide_eq_true_eq] at hh ⊢
        exact ⟨hh.1, by rw [hh.2]; decide⟩
    rw [hActive, hRequests]
    omega
  · have hZero : c.handlers.countP (Handler.inActive l) = 0 :=
      List.countP_eq_zero.2 fun h hh => by simp [Handler.inActive, hDone h hh]
    rw [(hI l).1, hZero]
    rfl
  · -- a label `1.0` or `1.1` needs TLS 1.0 or 1.1
    have hNone : ∀ l, (l = "1.0" ∨ l = "1.1") → c.requests l = 0 := fun l hl => by
      have hZero : c.handlers.countP (Handler.inRequests l) = 0 :=
        List.countP_eq_zero.2 fun h hh => by
          simp only [Handler.inRequests, Handler.label, decide_eq_true_eq, not_and]
          intro hLabel
          obtain ⟨v, hv, rfl⟩ := Option.map_eq_some'.1 hLabel
          have := hMin h hh v hv
          rcases versionLabel_old hl with rfl | rfl <;> omega
      rw [(hI l).2, hZero]
      rfl
    exact ⟨hNone _ (.inl rfl), hNone _ (.inr rfl)⟩

def twoRequests : List HttpAct :=
  [.arrive (some 0x0304), .arrive (some 0x0304), .advance 0, .advance 1, .advance 0, .advance 1,
    .advance 0]

theorem version_gauges_two :
    ∃ c, Counters.init.run twoRequests = some c ∧ c.active "1.3" = 1 ∧ c.requests "1.3" = 2 ∧
      (∀ l, 0 ≤ c.active l ∧ c.active l ≤ c.requests l) := by
  obtain ⟨c, hRun, hActive, hRequests⟩ : ∃ c, Counters.init.run twoRequests = some c ∧
      c.active "1.3" = 1 ∧ c.requests "1.3" = 2 := ⟨_, rfl, by decide, by decide⟩
  exact ⟨c, hRun, hActive, hRequests, (version_gauges twoRequests c hRun).2.1⟩

end MirageNavi.Http
