import MirageNavi.Windows.Service

/-! # Starting the service, and the installer's second start

`startService` connects to the service manager, opens the service and queries its state; while
the state is none of `Running`, `Paused` and `Stopped` it waits a second and queries again, and
then it calls `Start` whichever of the three the service settled in. The service manager refuses
`Start` on a service that is running or paused (`StartService` answers
`ERROR_SERVICE_ALREADY_RUNNING`), so `startService` returns nil only when a `Query` found the
service stopped.

The second wait of `isServiceInstaller` calls `startService` on each ten-second tick and only
afterwards asks again whether the service runs. A service that the installer has just started and
that is not yet running when the wait first looks is, at the first tick, start-pending or already
running: that `startService` waits for it to settle, calls `Start` on a running service, and the
installer exits through `log.Fatalf("服务启动执行失败")` as the call returns, ten seconds in and the
call's own time later, although the service runs.

What the service manager answers is an input, as in `MirageNavi.Windows.Service`: the state each
`Query` reports, and what `Start` returns in the state it is called in, right after the last
`Query`.
-/

namespace MirageNavi.Windows

set_option autoImplicit false

/-- `svc.State`, as `Query` reports it. -/
inductive SvcState
  | stopped
  | startPending
  | stopPending
  | running
  | continuePending
  | pausePending
  | paused
  deriving DecidableEq, Repr

/-- The states that end the wait of `startService`. -/
def SvcState.settled : SvcState → Bool
  | .running | .paused | .stopped => true
  | _ => false

/-- How a `startService` call ends: it returns an error, `none` for nil, or it is still waiting
when the answers run out; each at a time. -/
inductive StartEnd
  | returned (err : Option String) (t : Nat)
  | polling (t : Nat)
  deriving DecidableEq, Repr

/-- The wait of `startService`, from a `Query` answered at `t`:
`for status.State != svc.Running && status.State != svc.Paused && status.State != svc.Stopped && err == nil { <-time.After(time.Second); status, err = s.Query() }`,
then `Start`, which answers `start st` on a service in the state `st`. -/
def pollStart (start : SvcState → Option String) :
    Except String SvcState → List (Except String SvcState) → Nat → StartEnd
  | .error e, _, t => .returned (some e) t
  | .ok st, queries, t =>
    if st.settled then .returned (start st) t
    else match queries with
      | [] => .polling t
      | q :: queries => pollStart start q queries (t + second)

/-- What the service manager answers to one `startService` call: the errors of `mgr.Connect` and
`OpenService`, if any, the first `Query`, the `Query`s of the wait, a second apart, and what
`Start` returns on a service in each state. -/
structure Manager where
  connect : Option String
  openService : Option String
  query : Except String SvcState
  queries : List (Except String SvcState)
  start : SvcState → Option String

def startService (m : Manager) : StartEnd :=
  match m.connect, m.openService with
  | some e, _ => .returned (some e) 0
  | none, some e => .returned (some e) 0
  | none, none => pollStart m.start m.query m.queries 0

/-- The service manager refuses `Start` on a service that is running or paused. -/
def RefusesStarted (start : SvcState → Option String) : Prop :=
  start .running ≠ none ∧ start .paused ≠ none

def SvcState.ends : Except String SvcState → Bool
  | .error _ => true
  | .ok st => st.settled

section Poll

variable {start : SvcState → Option String}

theorem pollStart_returns :
    ∀ (q : Except String SvcState) (queries : List (Except String SvcState)) (t : Nat),
      (∃ q' ∈ q :: queries, SvcState.ends q' = true) →
        ∃ err r, pollStart start q queries t = .returned err r ∧ r ≤ t + queries.length * second
  | .error e, _, t, _ => ⟨some e, t, by simp [pollStart]⟩
  | .ok st, [], t, hEnds => ⟨start st, t, by simp_all [pollStart, SvcState.ends]⟩
  | .ok st, q :: queries, t, hEnds => by
    by_cases hSettled : st.settled = true
    · exact ⟨start st, t, by simp [pollStart, hSettled]⟩
    have hNext : ∃ q' ∈ q :: queries, SvcState.ends q' = true := by
      simpa [SvcState.ends, hSettled] using hEnds
    obtain ⟨err, r, hr, hLe⟩ := pollStart_returns q queries (t + second) hNext
    refine ⟨err, r, by rwa [pollStart.eq_3, if_neg hSettled], ?_⟩
    simp only [List.length_cons, Nat.succ_mul] at hLe ⊢
    omega

theorem pollStart_nil (hRefuses : RefusesStarted start) :
    ∀ (q : Except String SvcState) (queries : List (Except String SvcState)) (t r : Nat),
      pollStart start q queries t = .returned none r → .ok .stopped ∈ q :: queries
  | .error e, _, t, r, h => by simp [pollStart] at h
  | .ok st, queries, t, r, h => by
    by_cases hSettled : st.settled = true
    · have hStart : start st = none ∧ t = r := by cases queries <;> simpa [pollStart, hSettled] using h
      cases st <;> simp_all [SvcState.settled, RefusesStarted]
    cases queries with
    | nil => simp [pollStart, hSettled] at h
    | cons q queries =>
      rw [pollStart.eq_3, if_neg hSettled] at h
      exact List.mem_cons_of_mem _ (pollStart_nil hRefuses q queries _ r h)

end Poll

theorem startService_nil {m : Manager} {t : Nat} (hRefuses : RefusesStarted m.start)
    (h : startService m = .returned none t) : .ok .stopped ∈ m.query :: m.queries := by
  unfold startService at h
  split at h
  · simp at h
  · simp at h
  · exact pollStart_nil hRefuses _ _ _ _ h

theorem isServiceInstaller_starts_twice (env : InstallerEnv) (m : Manager) (t₀ t : Nat)
    (err : Option String) (pr : Probe) (rest : List Probe)
    (hInstalled : waitUntil false second (20 * second) env.installWait 0 second = .done t₀)
    (hInstall : env.installed = false → env.installOk = true)
    (hFirstStart : env.running = false → env.startOk = true)
    (hWait : env.startWait = pr :: rest) (hNotYet : pr.answer = false) (hTook : pr.took ≤ 10 * second)
    (hTick : startService m = .returned err t) (hOk : pr.startOk = err.isNone) (hTickTook : pr.startTook = t)
    (hRefuses : RefusesStarted m.start) (hNotStopped : .ok .stopped ∉ m.query :: m.queries) :
    isServiceInstaller true env = .fatal "服务启动执行失败" (t₀ + env.startTook + (10 * second + t)) := by
  have hRefused : pr.startOk = false := by
    cases err with
    | none => exact absurd (startService_nil hRefuses hTick) hNotStopped
    | some e => simpa using hOk
  -- the tick is due ten seconds in, fifty before the deadline
  have hs : select2 (0 + pr.took) (10 * second) (60 * second) pr.pickFirst = (true, 10 * second) := by
    have hSec : 0 < second := by decide
    rw [select2, max_eq_right (by omega), max_eq_right (by omega), if_pos (by omega)]
  have hFailed : waitUntil true (10 * second) (60 * second) env.startWait 0 (10 * second) =
      .failed (10 * second + t) := by
    rw [hWait, waitUntil_tick true _ _ hNotYet hs]
    simp [hRefused, hTickTook]
  have hSetUp : (!env.installed && !env.installOk) = false ∧ (!env.running && !env.startOk) = false := by
    constructor <;> cases h : env.installed <;> cases h' : env.running <;> simp_all
  simp [isServiceInstaller, hInstalled, startPhase, hSetUp, hFailed]

def pendingManager : Manager where
  connect := none
  openService := none
  query := .ok .startPending
  queries := [.ok .running]
  start st := if st = .stopped then none else some "An instance of the service is already running."

def pendingInstall : InstallerEnv :=
  ⟨false, true, [⟨true, 0, true, true, 0⟩], false, true, 0, [⟨false, 0, true, false, second⟩]⟩

theorem isServiceInstaller_starts_twice_pending :
    startService pendingManager = .returned (some "An instance of the service is already running.") second ∧
      RefusesStarted pendingManager.start ∧
      .ok .stopped ∉ pendingManager.query :: pendingManager.queries ∧
      isServiceInstaller true pendingInstall =
        .fatal "服务启动执行失败" (0 + pendingInstall.startTook + (10 * second + second)) :=
  have hTick : startService pendingManager =
      .returned (some "An instance of the service is already running.") second := by decide
  have hRefuses : RefusesStarted pendingManager.start := ⟨by decide, by decide⟩
  have hNotStopped : .ok .stopped ∉ pendingManager.query :: pendingManager.queries := by
    simp [pendingManager]
  ⟨hTick, hRefuses, hNotStopped,
    isServiceInstaller_starts_twice pendingInstall pendingManager 0 second _ ⟨false, 0, true, false, second⟩
      [] (by decide) (fun _ => rfl) (fun _ => rfl) rfl rfl (by decide) hTick rfl rfl hRefuses hNotStopped⟩

end MirageNavi.Windows
