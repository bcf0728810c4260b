import Mathlib.Data.List.Infix
import MirageNavi.Windows.Service
import MirageNavi.Client.Timeout

/-! # The client's watch on the daemon

`MiraWatcher.WatchDaemon` opens a watch on the daemon's notification bus with
`GetWatcherWithTimeout`, five seconds for the first call and fifteen for each of at most two
retries, and sends one status on `Tx`: `WatcherUpEvent`, or the last call's error behind the
words 无法建立守护进程监听管道. Once the watch is open, its loop forwards what each `Next` returns:
an error as it is, and of a notification its version, client version, network map, preferences
and state, in that order; for a login URL it asks `GetPrefs` and opens the URL when the daemon
wants to run. The loop returns after forwarding an error whose text mentions `EOF`.

The `break` under the login URL leaves the `for` loop, not the `if`: when `GetPrefs` fails the
loop ends there, and `Tx` is told nothing. And an error that does not mention `EOF` never ends the
loop. Once the watch context is canceled, by the interrupt task on `SIGINT` or `SIGTERM` or by
the timeout task of `GetWatcherWithTimeout`, every `Next` returns the context's error,
`context canceled`, and the loop forwards it again and again.

`Start` first makes sure the service runs: it elevates this program to install it if not, then
waits up to thirty seconds for it. `ElevateToInstallService` ends the process in `log.Fatalf` on
any error, so the error branch after it is never taken; the only error `Start` returns is its
wait's, which it sends on `Tx` first. Once `WatchDaemon` returns, `Start` returns nil, also when
`WatchDaemon` gave up.
-/

namespace MirageNavi.Client

open MirageNavi.Windows

set_option autoImplicit false

/-- `strings.Contains`. -/
def contains (s substr : String) : Bool := decide (substr.toList <:+: s.toList)

/-- The fields of an `ipn.Notify` the loop reads; a payload it only forwards is an opaque value. -/
structure Notify where
  version : String
  clientVersion : Option Nat
  netMap : Option Nat
  prefs : Option Nat
  state : Option Nat
  browseToURL : Option String
  deriving DecidableEq, Repr

/-- One pass of the loop as the outside answers it: `watcher.Next()` returns a notification, with
`getPrefs` what `LC.GetPrefs` answers if the pass asks (the preferences' `WantRunning`, `none` on
its error), or an error with its text. -/
inductive Turn
  | notify (n : Notify) (getPrefs : Option Bool)
  | error (msg : String)
  deriving DecidableEq, Repr

/-- What the watcher sends on `Tx`. -/
inductive Message
  | error (msg : String)
  | watcherUp
  | backendVersion (v : String)
  | clientVersion (c : Nat)
  | netMap (nm : Nat)
  | prefs (p : Nat)
  | state (st : Nat)
  deriving DecidableEq, Repr

/-- A send on `Tx`, or `open.Run(*url)`. -/
inductive Effect
  | send (m : Message)
  | openURL (url : String)
  deriving DecidableEq, Repr

/-- What a notification is forwarded as, in the order the loop sends it. -/
def Notify.messages (n : Notify) : List Message :=
  (if n.version ≠ "" then [.backendVersion n.version] else []) ++
    n.clientVersion.toList.map .clientVersion ++ n.netMap.toList.map .netMap ++
    n.prefs.toList.map .prefs ++ n.state.toList.map .state

/-- How the loop ends: the `return` after forwarding an error that mentions `EOF`, the `break`
under the login URL when `LC.GetPrefs` fails, or still reading when the turns run out. -/
inductive LoopEnd
  | eof
  | prefsFailed
  | reading
  deriving DecidableEq, Repr

/-- One pass of the loop body: what it does, and how it leaves the loop if it does. -/
def Turn.step : Turn → List Effect × Option LoopEnd
  | .error msg => ([.send (.error msg)], if contains msg "EOF" then some .eof else none)
  | .notify n getPrefs =>
    match n.browseToURL, getPrefs with
    | none, _ => (n.messages.map .send, none)
    | some _, none => (n.messages.map .send, some .prefsFailed)
    | some url, some wantRunning =>
      (n.messages.map .send ++ if wantRunning then [.openURL url] else [], none)

/-- The `for` loop of `WatchDaemon` once the watcher is up. -/
def dispatch : List Turn → List Effect × LoopEnd
  | [] => ([], .reading)
  | t :: turns =>
    match t.step with
    | (es, some e) => (es, e)
    | (es, none) =>
      let r := dispatch turns
      (es ++ r.1, r.2)

theorem dispatch_cons (t : Turn) (turns : List Turn) :
    dispatch (t :: turns) = match t.step.2 with
      | some e => (t.step.1, e)
      | none => (t.step.1 ++ (dispatch turns).1, (dispatch turns).2) := by
  rw [dispatch]
  rcases t.step with ⟨es, _ | e⟩ <;> rfl

theorem step_end {t : Turn} {e : LoopEnd} (h : t.step.2 = some e) :
    (e = .eof ∧ ∃ msg, contains msg "EOF" = true ∧ t.step.1 = [.send (.error msg)]) ∨
      (e = .prefsFailed ∧ ∀ msg, .send (.error msg) ∉ t.step.1) := by
  cases t with
  | error msg =>
    simp only [Turn.step] at h ⊢
    split at h
    · cases h; exact .inl ⟨rfl, msg, ‹_›, rfl⟩
    · cases h
  | notify n getPrefs =>
    simp only [Turn.step] at h ⊢
    split at h
    · cases h
    · cases h; exact .inr ⟨rfl, fun msg => by simp [Notify.messages]⟩
    · cases h

theorem step_error {t : Turn} (h : t.step.2 = none) {msg : String}
    (hMsg : Effect.send (.error msg) ∈ t.step.1) : t = .error msg ∧ contains msg "EOF" = false := by
  cases t with
  | error m =>
    simp only [Turn.step] at h hMsg
    split at h
    · cases h
    · rename_i hEOF
      simp only [List.mem_singleton, Effect.send.injEq, Message.error.injEq] at hMsg
      subst hMsg
      exact ⟨rfl, Bool.eq_false_iff.2 hEOF⟩
  | notify n getPrefs =>
    exfalso
    simp only [Turn.step] at h hMsg
    split at hMsg <;> simp [Notify.messages] at hMsg

theorem dispatch_append (pre post : List Turn) :
    dispatch (pre ++ post) = if (dispatch pre).2 = .reading then
      ((dispatch pre).1 ++ (dispatch post).1, (dispatch post).2) else dispatch pre := by
  induction pre with
  | nil => simp [dispatch]
  | cons t pre ih =>
    rw [List.cons_append, dispatch_cons, dispatch_cons, ih]
    cases h : t.step.2 with
    | none => simp only [h]; split <;> simp
    | some e =>
      have he : e ≠ .reading := by rcases step_end h with ⟨rfl, -⟩ | ⟨rfl, -⟩ <;> simp
      simp [he]

theorem eof_forwarded_last (turns : List Turn) {msg : String}
    (hMsg : .send (.error msg) ∈ (dispatch turns).1) (hEOF : contains msg "EOF" = true) :
    (dispatch turns).2 = .eof ∧ (dispatch turns).1.getLast? = some (.send (.error msg)) := by
  induction turns with
  | nil => simp [dispatch] at hMsg
  | cons t turns ih =>
    rw [dispatch_cons] at hMsg ⊢
    cases h : t.step.2 with
    | none =>
      simp only [h, List.mem_append] at hMsg ⊢
      rcases hMsg with hMsg | hMsg
      · exact absurd hEOF (by simp [(step_error h hMsg).2])
      · obtain ⟨hEnd, hLast⟩ := ih hMsg
        exact ⟨hEnd, by rw [List.getLast?_append, hLast]; rfl⟩
    | some e =>
      simp only [h] at hMsg ⊢
      rcases step_end h with ⟨rfl, m, -, hStep⟩ | ⟨rfl, hNone⟩
      · rw [hStep] at hMsg ⊢
        simp only [List.mem_singleton, Effect.send.injEq, Message.error.injEq] at hMsg
        subst hMsg
        exact ⟨rfl, rfl⟩
      · exact absurd hMsg (hNone msg)

theorem eof_end (turns : List Turn) (h : (dispatch turns).2 = .eof) :
    ∃ msg, contains msg "EOF" = true ∧ (dispatch turns).1.getLast? = some (.send (.error msg)) := by
  induction turns with
  | nil => simp [dispatch] at h
  | cons t turns ih =>
    rw [dispatch_cons] at h ⊢
    cases hs : t.step.2 with
    | none =>
      simp only [hs] at h ⊢
      obtain ⟨msg, hEOF, hLast⟩ := ih h
      exact ⟨msg, hEOF, by rw [List.getLast?_append, hLast]; rfl⟩
    | some e =>
      simp only [hs] at h ⊢
      rcases step_end hs with ⟨-, m, hEOF, hStep⟩ | ⟨rfl, -⟩
      · exact ⟨m, hEOF, by rw [hStep]; rfl⟩
      · cases h

theorem dispatch_signals_end (turns : List Turn) :
    ((dispatch turns).2 = .eof ↔
      ∃ msg, contains msg "EOF" = true ∧ (dispatch turns).1.getLast? = some (.send (.error msg))) ∧
    ((dispatch turns).2 ≠ .eof →
      ∀ msg, .send (.error msg) ∈ (dispatch turns).1 → contains msg "EOF" = false) := by
  refine ⟨⟨eof_end turns, fun ⟨msg, hEOF, hLast⟩ => ?_⟩, fun hEnd msg hMsg => ?_⟩
  · exact (eof_forwarded_last turns (List.mem_of_getLast?_eq_some hLast) hEOF).1
  · cases hEOF : contains msg "EOF"
    · rfl
    · exact absurd (eof_forwarded_last turns hMsg hEOF).1 hEnd

-- a login URL whose `GetPrefs` fails ends the loop with nothing forwarded about it
example : dispatch [.notify ⟨"", none, none, none, none, some "u"⟩ none, .error "EOF"] = ([], .prefsFailed) := by
  decide

theorem dispatch_errors (msgs : List String) (hMsgs : ∀ msg ∈ msgs, contains msg "EOF" = false) :
    dispatch (msgs.map .error) = (msgs.map fun msg => .send (.error msg), .reading) := by
  induction msgs with
  | nil => rfl
  | cons msg msgs ih =>
    rw [List.map_cons, dispatch_cons, ih fun m hm => hMsgs m (List.mem_cons_of_mem _ hm)]
    simp [Turn.step, hMsgs msg (List.mem_cons_self _ _)]

theorem dispatch_never_ends_on_errors (pre : List Turn) (msgs : List String)
    (hReading : (dispatch pre).2 = .reading) (hMsgs : ∀ msg ∈ msgs, contains msg "EOF" = false) :
    dispatch (pre ++ msgs.map .error) =
      ((dispatch pre).1 ++ msgs.map (fun msg => .send (.error msg)), .reading) := by
  rw [dispatch_append, if_pos hReading, dispatch_errors msgs hMsgs]

theorem dispatch_never_ends_on_errors_canceled :
    (dispatch [.notify ⟨"1.0", none, none, none, none, none⟩ none]).2 = .reading ∧
      (∀ msg ∈ List.replicate 3 "context canceled", contains msg "EOF" = false) ∧
      dispatch ([.notify ⟨"1.0", none, none, none, none, none⟩ none] ++
          (List.replicate 3 "context canceled").map .error) =
        ((dispatch [.notify ⟨"1.0", none, none, none, none, none⟩ none]).1 ++
          (List.replicate 3 "context canceled").map (fun msg => .send (.error msg)), .reading) :=
  have hReading : (dispatch [.notify ⟨"1.0", none, none, none, none, none⟩ none]).2 = .reading := by
    decide
  have hMsgs : ∀ msg ∈ List.replicate 3 "context canceled", contains msg "EOF" = false := by decide
  ⟨hReading, hMsgs, dispatch_never_ends_on_errors _ _ hReading hMsgs⟩

theorem dispatch_opens (turns : List Turn) {url : String} (h : .openURL url ∈ (dispatch turns).1) :
    ∃ n, .notify n (some true) ∈ turns ∧ n.browseToURL = some url := by
  induction turns with
  | nil => simp [dispatch] at h
  | cons t turns ih =>
    rw [dispatch_cons] at h
    have hStep : .openURL url ∈ t.step.1 → ∃ n, t = .notify n (some true) ∧ n.browseToURL = some url := by
      intro hs
      cases t with
      | error msg => simp [Turn.step] at hs
      | notify n getPrefs =>
        simp only [Turn.step] at hs
        split at hs <;> simp [Notify.messages] at hs
        obtain ⟨rfl, rfl⟩ := hs
        exact ⟨n, rfl, ‹_›⟩
    split at h
    · obtain ⟨n, rfl, hn⟩ := hStep h
      exact ⟨n, List.mem_cons_self _ _, hn⟩
    · rcases List.mem_append.1 h with h | h
      · obtain ⟨n, rfl, hn⟩ := hStep h
        exact ⟨n, List.mem_cons_self _ _, hn⟩
      · obtain ⟨n, hn, hURL⟩ := ih h
        exact ⟨n, List.mem_cons_of_mem _ hn, hURL⟩

/-! ## Opening the watch -/

/-- The error `WatchDaemon` sends when it gives up. -/
def unreachable (err : String) : String := "无法建立守护进程监听管道:" ++ err

/-- The retry loop of `WatchDaemon` from its check of the error of call `i`, with `retryCounter`
retries left; `attempt j` is the error text of call `j`. Returns the timeouts of the calls it makes
and the status it sends. -/
def retry (attempt : Nat → String) (i : Nat) (retryCounter : Nat) : List Nat × Message :=
  if attempt i = watcherOK then ([], .watcherUp)
  else match retryCounter with
    | 0 => ([], .error (unreachable (attempt i)))
    | n + 1 => (15 :: (retry attempt (i + 1) n).1, (retry attempt (i + 1) n).2)

/-- The outside answers `WatchDaemon` reads: the error text of each `GetWatcherWithTimeout` call,
in call order, and the turns of its loop. -/
structure WatchEnv where
  attempt : Nat → String
  turns : List Turn

/-- What `WatchDaemon` did: the timeout, in seconds, of each `GetWatcherWithTimeout` call, its
effects, and how its loop ended, `none` when it gave up before the loop. -/
structure Watched where
  calls : List Nat
  effects : List Effect
  loopEnd : Option LoopEnd

def watchDaemon (env : WatchEnv) : Watched :=
  let r := retry env.attempt 0 2
  match r.2 with
  | .watcherUp => ⟨5 :: r.1, .send .watcherUp :: (dispatch env.turns).1, some (dispatch env.turns).2⟩
  | m => ⟨5 :: r.1, [.send m], none⟩

theorem retry_spec (attempt : Nat → String) :
    ∀ (rc i : Nat), (retry attempt i rc).1 = List.replicate (retry attempt i rc).1.length 15 ∧
      (retry attempt i rc).1.length ≤ rc ∧
      (∀ j < (retry attempt i rc).1.length, attempt (i + j) ≠ watcherOK) ∧
      (attempt (i + (retry attempt i rc).1.length) = watcherOK ∧ (retry attempt i rc).2 = .watcherUp ∨
        attempt (i + rc) ≠ watcherOK ∧ (retry attempt i rc).1.length = rc ∧
          (retry attempt i rc).2 = .error (unreachable (attempt (i + rc))))
  | rc, i => by
    unfold retry
    by_cases hOK : attempt i = watcherOK
    · simp [hOK]
    rw [if_neg hOK]
    cases rc with
    | zero => simp [hOK]
    | succ n =>
      obtain ⟨hReplicate, hLen, hFailed, hEnd⟩ := retry_spec attempt n (i + 1)
      simp only [List.length_cons, List.replicate_succ, List.cons.injEq, true_and]
      refine ⟨hReplicate, by omega, fun j hj => ?_, ?_⟩
      · cases j with
        | zero => exact hOK
        | succ j => rw [← Nat.add_assoc, Nat.add_right_comm]; exact hFailed j (by omega)
      · rw [show i + ((retry attempt (i + 1) n).1.length + 1) =
            i + 1 + (retry attempt (i + 1) n).1.length by omega, show i + (n + 1) = i + 1 + n by omega]
        exact hEnd.imp id fun ⟨hNot, hLen', hErr⟩ => ⟨hNot, by omega, hErr⟩

/-! ## Starting the watcher -/

/-- What `Start` reads from outside: the first `isServiceRunning()`, the elevation's answers, the
passes of the wait for the service to run, and what `WatchDaemon` reads. -/
structure StartEnv where
  running : Bool
  elevate : ElevateEnv
  wait : List Probe
  watch : WatchEnv

/-- How `Start` ends: `log.Fatalf` inside `ElevateToInstallService`, and the process exits; it
returns `err`, `none` for nil, having done `effects`; or it is still waiting for the service, or
still in the loop of `WatchDaemon`, having done `effects`. -/
inductive Started
  | exited (msg : String)
  | returned (err : Option String) (effects : List Effect)
  | running (effects : List Effect)
  deriving DecidableEq, Repr

/-- `Start` once the service is running or has been asked to start: the thirty-second wait, then
`WatchDaemon`. -/
def waitAndWatch (env : StartEnv) : Started :=
  match waitUntil false second (30 * second) env.wait 0 second with
  | .done _ =>
    if (watchDaemon env.watch).loopEnd = some .reading then .running (watchDaemon env.watch).effects
    else .returned none (watchDaemon env.watch).effects
  | .timeout _ => .returned (some "后台服务未正常运行") [.send (.error "后台服务未正常运行")]
  | .failed _ => .running []
  | .waiting _ => .running []

def start (env : StartEnv) : Started :=
  if env.running then waitAndWatch env
  else match elevateToInstallService env.elevate with
    -- `log.Fatalf`: the `w.Tx <- err` and `return err` after the call are never reached
    | .error msg => .exited msg
    | .ok _ => waitAndWatch env

end MirageNavi.Client
