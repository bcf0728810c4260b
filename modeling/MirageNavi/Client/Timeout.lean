import Mathlib.Tactic.SplitIfs

/-! # The race in `GetWatcherWithTimeout`

`GetWatcherWithTimeout` runs two tasks in an `errgroup` made with `errgroup.WithContext(watchCtx)`.
The first calls `LC.WatchIPNBus` unless `egctx` is already canceled, and turns a nil error into
the error `Watcher is OK`; the second waits for `egctx` or for `time.After(timeout)`, and on the
timer cancels `watchCtx` and returns `Watcher up time out`. The group keeps the first non-nil
error a task returns and cancels `egctx` with it; `eg.Wait()` returns it once both tasks have
returned.

Every task returns a non-nil error, so `eg.Wait()` never returns nil, and it returns
`Watcher is OK` only when `WatchIPNBus` returned a watcher: `WatchDaemon`'s `err.Error()` and its
calls on the watcher never meet nil. But a `select` with both cases ready takes either, so the
timer task can still cancel `watchCtx` after the watch opened and the group took `Watcher is OK`:
the caller then reads from a watch whose context is canceled.
-/

namespace MirageNavi.Client

set_option autoImplicit false

/-- The text of the error `GetWatcherWithTimeout` returns when the watch is open. -/
def watcherOK : String := "Watcher is OK"

/-- `context.Canceled.Error()`. -/
def contextCanceled : String := "context canceled"

/-- Where the first task stands: before its `select`, in `LC.WatchIPNBus`, or returned. -/
inductive Opener
  | ready
  | calling
  | returned
  deriving DecidableEq, Repr

/-- Where the second task stands. -/
inductive Timer
  | waiting
  | returned
  deriving DecidableEq, Repr

/-- The two tasks of `GetWatcherWithTimeout`; whether `egctx` and `watchCtx` are canceled and
`time.After(timeout)` has fired; the first non-nil error a task returned, which the group keeps;
and whether the named result `watcher` holds the watcher `WatchIPNBus` returned. -/
structure Race where
  opener : Opener
  timer : Timer
  egDone : Bool
  watchCanceled : Bool
  fired : Bool
  first : Option String
  watcher : Bool
  deriving DecidableEq, Repr

def Race.init : Race := ⟨.ready, .waiting, false, false, false, none, false⟩

/-- A task returns the non-nil error `err`: the group keeps it if it is the first, and cancels
`egctx`. -/
def Race.record (s : Race) (err : String) : Race :=
  { s with first := some (s.first.getD err), egDone := true }

/-- The first task's `select`, which has a `default` case; `LC.WatchIPNBus` returning, `none`
with a watcher and `some err` with an error; `timeout` passing; the second task taking the
`time.After` case or the `egctx.Done()` case; and the caller's `ctx` being canceled. -/
inductive RaceAct
  | open
  | watchReturns (result : Option String)
  | fire
  | timeUp
  | canceled
  | cancelParent
  deriving DecidableEq, Repr

/-- One step of either task or of the outside. An error of `WatchIPNBus` never reads
`Watcher is OK`. -/
def Race.step (s : Race) : RaceAct → Option Race
  | .open =>
    if s.opener = .ready then
      some (if s.egDone then { s.record contextCanceled with opener := .returned }
        else { s with opener := .calling })
    else none
  | .watchReturns none =>
    if s.opener = .calling then some { s.record watcherOK with opener := .returned, watcher := true }
    else none
  | .watchReturns (some err) =>
    if s.opener = .calling ∧ err ≠ watcherOK then some { s.record err with opener := .returned }
    else none
  | .fire => if s.fired then none else some { s with fired := true }
  | .timeUp =>
    if s.timer = .waiting ∧ s.fired then
      some { s.record "Watcher up time out" with timer := .returned, watchCanceled := true }
    else none
  | .canceled =>
    if s.timer = .waiting ∧ s.egDone then some { s.record contextCanceled with timer := .returned }
    else none
  | .cancelParent => some { s with watchCanceled := true, egDone := true }

def Race.run (s : Race) : List RaceAct → Option Race
  | [] => some s
  | a :: as => (s.step a).bind fun s' => s'.run as

def Race.waited (s : Race) : Prop := s.opener = .returned ∧ s.timer = .returned

structure Race.Inv (s : Race) : Prop where
  kept : s.opener = .returned ∨ s.timer = .returned → s.first.isSome
  ok : s.first = some watcherOK → s.watcher = true

theorem Race.Inv.init : Race.init.Inv :=
  ⟨by simp [Race.init], by simp [Race.init]⟩

theorem Race.record_first (s : Race) (err : String) : (s.record err).first.isSome := rfl

theorem Race.Inv.record {s : Race} (hI : s.Inv) {err : String} (hErr : err ≠ watcherOK) :
    (s.record err).first = some watcherOK → s.watcher = true := fun h => by
  cases hf : s.first with
  | none => simp [Race.record, hf] at h; exact absurd h hErr
  | some e => exact hI.ok (by simpa [Race.record, hf] using h)

theorem Race.Inv.step {s s' : Race} {a : RaceAct} (hI : s.Inv) (h : s.step a = some s') : s'.Inv := by
  cases a with
  | «open» =>
    simp only [Race.step] at h
    split_ifs at h <;> cases h
    · exact ⟨fun _ => s.record_first _, hI.record (by decide)⟩
    · exact ⟨fun h => hI.kept (by simp_all), hI.ok⟩
  | watchReturns result =>
    cases result with
    | none =>
      simp only [Race.step] at h
      split_ifs at h
      cases h
      exact ⟨fun _ => s.record_first _, fun _ => rfl⟩
    | some err =>
      simp only [Race.step] at h
      split_ifs at h with hCalling
      cases h
      exact ⟨fun _ => s.record_first _, hI.record hCalling.2⟩
  | fire =>
    simp only [Race.step] at h
    split_ifs at h
    cases h
    exact ⟨hI.kept, hI.ok⟩
  | timeUp =>
    simp only [Race.step] at h
    split_ifs at h
    cases h
    exact ⟨fun _ => s.record_first _, hI.record (by decide)⟩
  | canceled =>
    simp only [Race.step] at h
    split_ifs at h
    cases h
    exact ⟨fun _ => s.record_first _, hI.record (by decide)⟩
  | cancelParent =>
    simp only [Race.step] at h
    cases h
    exact ⟨hI.kept, hI.ok⟩

theorem Race.Inv.run {s s' : Race} (hI : s.Inv) : ∀ {acts : List RaceAct}, s.run acts = some s' → s'.Inv
  | [], h => by cases h; exact hI
  | a :: as, h => by
    obtain ⟨s₁, h₁, h₂⟩ := Option.bind_eq_some.1 h
    exact (hI.step h₁).run h₂

theorem wait_never_nil (acts : List RaceAct) (s : Race) (hRun : Race.init.run acts = some s)
    (hWaited : s.waited) :
    (∃ err, s.first = some err) ∧ (s.first = some watcherOK → s.watcher = true) := by
  have hI := Race.Inv.init.run hRun
  exact ⟨Option.isSome_iff_exists.1 (hI.kept (.inl hWaited.1)), hI.ok⟩

def lateTimeout : List RaceAct := [.open, .fire, .watchReturns none, .timeUp]

theorem wait_never_nil_late_timeout :
    ∃ s, Race.init.run lateTimeout = some s ∧ s.waited ∧ s.watchCanceled = true ∧
      ((∃ err, s.first = some err) ∧ (s.first = some watcherOK → s.watcher = true)) ∧
      s.first = some watcherOK := by
  have hRun : Race.init.run lateTimeout =
      some ⟨.returned, .returned, true, true, true, some watcherOK, true⟩ := by decide
  exact ⟨_, hRun, ⟨rfl, rfl⟩, rfl, wait_never_nil lateTimeout _ hRun ⟨rfl, rfl⟩, rfl⟩

end MirageNavi.Client
