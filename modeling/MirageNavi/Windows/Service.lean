import Mathlib.Tactic.Ring

/-! # Waiting on the service manager

`isServiceInstaller` waits for the service in two loops of the form
`for !probe() { select { case <-ticker.C: ... case <-after: log.Fatalf(...) } }`: twenty
seconds for the installation, polled each second, then sixty for the service to run, polled
every ten seconds with a new `startService` on each tick. Both timers are made once, before the
loop, so the `time.After` is a deadline. `isServiceUninstaller` waits in
`for isServiceInstalled() { select { case <-time.Tick(time.Second): case <-time.After(20 * time.Second): ... } }`,
which makes both timers anew on each pass: the tick is always due first, the timeout never fires,
and the loop waits for as long as the service stays installed. Its call of
`UninstallSystemDaemonWindows` drops the error, so a service that cannot be deleted holds it
there for good.

A `select` blocks until one of its channels is ready and takes one of those ready then, at random;
a ticker drops the ticks its reader misses. Times are `time.Duration`s, in nanoseconds; how long
each call takes is an input.
-/

namespace MirageNavi.Windows

set_option autoImplicit false

/-- `time.Second`, in nanoseconds. -/
def second : Nat := 1000000000

/-- One pass of a wait loop, as the outside answers it: what the probe (`isServiceInstalled` or
`isServiceRunning`) answers and how long it takes; which case the runtime takes if the `select`
finds both channels ready (`true` for the first); and, in a loop whose tick case calls
`startService`, whether that call returns nil and how long it takes. -/
structure Probe where
  answer : Bool
  took : Nat
  pickFirst : Bool
  startOk : Bool
  startTook : Nat
  deriving DecidableEq, Repr

/-- How a wait loop ends: the probe answered what the loop waits for, the `time.After` case was
taken, `startService` failed in the tick case, or the loop is still waiting when the passes run
out. -/
inductive WaitEnd
  | done (t : Nat)
  | timeout (t : Nat)
  | failed (t : Nat)
  | waiting (t : Nat)
  deriving DecidableEq, Repr

/-- A `select` entered at `u` over two channels whose values are due at `a` and `b`: whether it
takes the first, and when. It blocks until one is ready and takes one of those ready then. -/
def select2 (u a b : Nat) (pickFirst : Bool) : Bool × Nat :=
  if max u a < max u b then (true, max u a)
  else if max u b < max u a then (false, max u b)
  else (pickFirst, max u a)

theorem select2_spec (u a b : Nat) (pickFirst : Bool) :
    select2 u a b pickFirst = (true, max u a) ∧ max u a ≤ max u b ∨
      select2 u a b pickFirst = (false, max u b) ∧ max u b ≤ max u a := by
  unfold select2
  split_ifs <;> cases pickFirst <;> simp <;> omega

/-- `for !probe() { select { case <-ticker.C: ... case <-after: ... } }` with a ticker of period
`period` and an `after` due at `deadline`, both made at time 0 just before the loop; entered at
`t` with the ticker's next value due at `next`. A ticker drops the ticks its reader misses: a
tick taken at `r` leaves the next one due at the first multiple of the period after `r`, buffered
if it falls while the tick case still runs. With `startOnTick` the tick case calls `startService`
and `log.Fatalf`s on its error once the call has returned. -/
def waitUntil (startOnTick : Bool) (period deadline : Nat) : List Probe → Nat → Nat → WaitEnd
  | [], t, _ => .waiting t
  | pr :: probes, t, next =>
    if pr.answer then .done (t + pr.took)
    else match select2 (t + pr.took) next deadline pr.pickFirst with
      | (true, r) =>
        if startOnTick then
          if pr.startOk then
            waitUntil startOnTick period deadline probes (r + pr.startTook) ((r / period + 1) * period)
          else .failed (r + pr.startTook)
        else waitUntil startOnTick period deadline probes r ((r / period + 1) * period)
      | (false, r) => .timeout r

/-- `for probe() { select { case <-time.Tick(time.Second): case <-time.After(20 * time.Second): ... } }`,
which makes both timers anew on every pass. -/
def waitWhile : List Probe → Nat → WaitEnd
  | [], t => .waiting t
  | pr :: probes, t =>
    if !pr.answer then .done (t + pr.took)
    else match select2 (t + pr.took) (t + pr.took + second) (t + pr.took + 20 * second) pr.pickFirst with
      | (true, r) => waitWhile probes r
      | (false, r) => .timeout r

section Until

variable (startOnTick : Bool) (period deadline : Nat) {pr : Probe} {probes : List Probe} {t next r : Nat}

theorem waitUntil_tick (hAnswer : pr.answer = false)
    (hs : select2 (t + pr.took) next deadline pr.pickFirst = (true, r)) :
    waitUntil startOnTick period deadline (pr :: probes) t next =
      if startOnTick && !pr.startOk then .failed (r + pr.startTook)
      else waitUntil startOnTick period deadline probes (r + if startOnTick then pr.startTook else 0)
        ((r / period + 1) * period) := by
  cases startOnTick <;> cases h : pr.startOk <;> simp [waitUntil, hAnswer, hs, h]

theorem waitUntil_after (hAnswer : pr.answer = false)
    (hs : select2 (t + pr.took) next deadline pr.pickFirst = (false, r)) :
    waitUntil startOnTick period deadline (pr :: probes) t next = .timeout r := by
  simp [waitUntil, hAnswer, hs]

theorem waitUntil_timeout :
    ∀ (probes : List Probe) (t next r : Nat),
      waitUntil startOnTick period deadline probes t next = .timeout r → deadline ≤ r
  | [], _, _, _, h => by simp [waitUntil] at h
  | pr :: probes, t, next, r, h => by
    cases hAnswer : pr.answer
    · rcases select2_spec (t + pr.took) next deadline pr.pickFirst with ⟨hs, -⟩ | ⟨hs, -⟩
      · rw [waitUntil_tick startOnTick period deadline hAnswer hs] at h
        split_ifs at h <;> exact waitUntil_timeout probes _ _ r h
      · rw [waitUntil_after startOnTick period deadline hAnswer hs] at h
        cases h
        omega
    · simp [waitUntil, hAnswer] at h

theorem waitUntil_ends (hPeriod : 0 < period) {d : Nat} (hd : 2 * d < period) :
    ∀ (probes : List Probe) (t next : Nat),
      (∀ pr ∈ probes, pr.took ≤ d ∧ (startOnTick = true → pr.startTook ≤ d)) →
      t + d < next → t ≤ deadline + d → period ∣ next →
      (deadline + period - next) / period + 1 ≤ probes.length →
      ∃ r ≤ deadline + 2 * d, waitUntil startOnTick period deadline probes t next = .done r ∨
        waitUntil startOnTick period deadline probes t next = .timeout r ∨
        waitUntil startOnTick period deadline probes t next = .failed r
  | [], _, _, _, _, _, _, hLen => by simp at hLen
  | pr :: probes, t, next, hTook, hNext, ht, hDvd, hLen => by
    obtain ⟨hProbe, hStart⟩ := hTook pr (List.mem_cons_self _ _)
    cases hAnswer : pr.answer
    case true => exact ⟨t + pr.took, by omega, .inl (by simp [waitUntil, hAnswer])⟩
    rcases select2_spec (t + pr.took) next deadline pr.pickFirst with ⟨hs, hLe⟩ | ⟨hs, -⟩
    · -- the tick, due before the deadline or with it
      have hTick : next ≤ deadline := by omega
      rw [max_eq_right (by omega : t + pr.took ≤ next)] at hs
      rw [waitUntil_tick startOnTick period deadline hAnswer hs]
      have hBody : (if startOnTick then pr.startTook else 0) ≤ d := by
        cases startOnTick
        · exact Nat.zero_le d
        · exact hStart rfl
      by_cases hFail : (startOnTick && !pr.startOk) = true
      · rw [if_pos hFail]
        have hCall := hStart (Bool.and_eq_true_iff.1 hFail).1
        exact ⟨next + pr.startTook, by omega, .inr (.inr rfl)⟩
      rw [if_neg hFail, Nat.add_mul, Nat.div_mul_cancel hDvd, Nat.one_mul]
      refine waitUntil_ends hPeriod hd probes _ _ (fun p hp => hTook p (List.mem_cons_of_mem _ hp))
        (by omega) (by omega) (Nat.dvd_add_self_right.2 hDvd) ?_
      have hDiv : (deadline + period - next) / period = (deadline + period - (next + period)) / period + 1 := by
        rw [← Nat.add_div_right _ hPeriod]
        congr 1
        omega
      simp only [List.length_cons] at hLen
      omega
    · -- the deadline is due first
      rw [waitUntil_after startOnTick period deadline hAnswer hs]
      exact ⟨_, by omega, .inr (.inl rfl)⟩

end Until

theorem waitWhile_spec :
    ∀ (probes : List Probe) (t : Nat), (∀ r, waitWhile probes t ≠ .timeout r) ∧
      ((∀ pr ∈ probes, pr.answer = true) →
        ∃ r, waitWhile probes t = .waiting r ∧ t + probes.length * second ≤ r)
  | [], t => ⟨by simp [waitWhile], fun _ => ⟨t, rfl, by simp⟩⟩
  | pr :: probes, t => by
    -- the tick is due nineteen seconds before the timeout
    have hs : select2 (t + pr.took) (t + pr.took + second) (t + pr.took + 20 * second)
        pr.pickFirst = (true, t + pr.took + second) := by
      rcases select2_spec (t + pr.took) (t + pr.took + second) (t + pr.took + 20 * second)
        pr.pickFirst with ⟨hs, -⟩ | ⟨-, hLe⟩
      · rwa [max_eq_right (Nat.le_add_right _ _)] at hs
      · simp only [second] at hLe
        omega
    set r₀ := t + pr.took + second
    have hStep : pr.answer = true → waitWhile (pr :: probes) t = waitWhile probes r₀ := fun h => by
      simp [waitWhile, h, hs]
    obtain ⟨hNever, hWaiting⟩ := waitWhile_spec probes r₀
    refine ⟨fun r => ?_, fun hAll => ?_⟩
    · cases h : pr.answer
      · simp [waitWhile, h]
      · rw [hStep h]
        exact hNever r
    · obtain ⟨r, hr, hLe⟩ := hWaiting fun p hp => hAll p (List.mem_cons_of_mem _ hp)
      refine ⟨r, (hStep (hAll pr (List.mem_cons_self _ _))).trans hr, ?_⟩
      rw [List.length_cons, Nat.succ_mul]
      omega

theorem waitUntil_not_failed (period deadline : Nat) :
    ∀ (probes : List Probe) (t next r : Nat), waitUntil false period deadline probes t next ≠ .failed r
  | [], _, _, _ => by simp [waitUntil]
  | pr :: probes, t, next, r => by
    cases hAnswer : pr.answer
    · rcases select2_spec (t + pr.took) next deadline pr.pickFirst with ⟨hs, -⟩ | ⟨hs, -⟩
      · rw [waitUntil_tick false period deadline hAnswer hs]
        exact waitUntil_not_failed period deadline probes _ _ r
      · simp [waitUntil_after false period deadline hAnswer hs]
    · simp [waitUntil, hAnswer]

/-! ## The installer and the uninstaller -/

/-- How `isServiceInstaller` or `isServiceUninstaller` ends: it returns a value, it calls
`log.Fatalf` with a message and the process exits, or it is still waiting when the answers run
out; each at a time. -/
inductive Outcome
  | returned (b : Bool) (t : Nat)
  | fatal (msg : String) (t : Nat)
  | blocked (t : Nat)
  deriving DecidableEq, Repr

/-- What the service manager answers during `isServiceInstaller`: the first `isServiceInstalled()`,
whether `InstallSystemDaemonWindows()` returns nil, the passes of the wait for the installation,
`isServiceRunning()` before the first start, whether that `startService()` returns nil and how
long the check and the start take, and the passes of the wait for the service to run. Times count
from the moment the first ticker is made. -/
structure InstallerEnv where
  installed : Bool
  installOk : Bool
  installWait : List Probe
  running : Bool
  startOk : Bool
  startTook : Nat
  startWait : List Probe
  deriving DecidableEq, Repr

/-- `isServiceInstaller` once it has seen the service installed at time `t`: it starts the
service if it is not running, then waits for it to run. -/
def startPhase (env : InstallerEnv) (t : Nat) : Outcome :=
  if !env.running && !env.startOk then .fatal "服务启动执行失败" (t + env.startTook)
  else match waitUntil true (10 * second) (60 * second) env.startWait 0 (10 * second) with
    | .done r => .returned true (t + env.startTook + r)
    | .timeout r => .fatal "服务未能启动" (t + env.startTook + r)
    | .failed r => .fatal "服务启动执行失败" (t + env.startTook + r)
    | .waiting r => .blocked (t + env.startTook + r)

def isServiceInstaller (asServiceInstaller : Bool) (env : InstallerEnv) : Outcome :=
  if !asServiceInstaller then .returned false 0
  else if !env.installed && !env.installOk then .fatal "服务安装执行失败" 0
  else match waitUntil false second (20 * second) env.installWait 0 second with
    | .done t => startPhase env t
    | .timeout t => .fatal "服务未能安装" t
    -- a tick case that starts nothing does not fail
    | .failed t => .blocked t
    | .waiting t => .blocked t

theorem isServiceInstaller_fatal {env : InstallerEnv} {msg : String} {t : Nat}
    (h : isServiceInstaller true env = .fatal msg t) :
    msg = "服务安装执行失败" ∨
      msg = "服务未能安装" ∧ waitUntil false second (20 * second) env.installWait 0 second = .timeout t ∨
      ∃ t₀, waitUntil false second (20 * second) env.installWait 0 second = .done t₀ ∧
        (msg = "服务启动执行失败" ∨ ∃ r, msg = "服务未能启动" ∧
          waitUntil true (10 * second) (60 * second) env.startWait 0 (10 * second) = .timeout r ∧
          t = t₀ + env.startTook + r) := by
  unfold isServiceInstaller at h
  split_ifs at h
  · exact .inl (Outcome.fatal.inj h).1.symm
  rcases h1 : waitUntil false second (20 * second) env.installWait 0 second with t₀ | t₀ | t₀ | t₀ <;>
    simp only [h1, reduceCtorEq] at h
  · refine .inr (.inr ⟨t₀, rfl, ?_⟩)
    unfold startPhase at h
    split_ifs at h
    · exact .inl (Outcome.fatal.inj h).1.symm
    rcases h2 : waitUntil true (10 * second) (60 * second) env.startWait 0 (10 * second) with
      r | r | r | r <;> simp only [h2, reduceCtorEq, Outcome.fatal.injEq] at h
    · exact .inr ⟨r, h.1.symm, rfl, h.2.symm⟩
    · exact .inl h.1.symm
  · obtain ⟨rfl, rfl⟩ := Outcome.fatal.inj h
    exact .inr (.inl ⟨rfl, rfl⟩)

/-- What the service manager answers during `isServiceUninstaller`: the first
`isServiceInstalled()`, how long `UninstallSystemDaemonWindows()` takes, and the passes of the wait
for the service to be gone. Times count from the call of `UninstallSystemDaemonWindows`, whose
error `isServiceUninstaller` drops. -/
structure UninstallerEnv where
  installed : Bool
  uninstallTook : Nat
  uninstallWait : List Probe
  deriving DecidableEq, Repr

def isServiceUninstaller (asServiceUninstaller : Bool) (env : UninstallerEnv) : Outcome :=
  if !asServiceUninstaller then .returned false 0
  else if !env.installed then .fatal "服务尚未安装" 0
  else match waitWhile env.uninstallWait env.uninstallTook with
    | .done t => .returned true t
    | .timeout t => .fatal "服务未能卸载" t
    -- the loop has no tick case that can fail
    | .failed t => .blocked t
    | .waiting t => .blocked t

theorem isServiceInstaller_bounded (env : InstallerEnv) (d₁ d₂ : Nat) :
    (∀ t, isServiceInstaller true env = .fatal "服务未能安装" t → 20 * second ≤ t) ∧
      (∀ t, isServiceInstaller true env = .fatal "服务未能启动" t → 60 * second ≤ t) ∧
      ((∀ pr ∈ env.installWait, pr.took ≤ d₁) → 2 * d₁ < second →
        (∀ pr ∈ env.startWait, pr.took ≤ d₂ ∧ pr.startTook ≤ d₂) → 2 * d₂ < 10 * second →
        21 ≤ env.installWait.length → 7 ≤ env.startWait.length →
        ∃ t ≤ 80 * second + 2 * d₁ + env.startTook + 2 * d₂, isServiceInstaller true env = .returned true t ∨
          ∃ msg, isServiceInstaller true env = .fatal msg t) := by
  refine ⟨fun t h => ?_, fun t h => ?_, fun hTook₁ hd₁ hTook₂ hd₂ hLen₁ hLen₂ => ?_⟩
  · rcases isServiceInstaller_fatal h with hMsg | ⟨-, hWait⟩ | ⟨t₀, -, hMsg | ⟨r, hMsg, -⟩⟩ <;>
      first | exact absurd hMsg (by decide) | exact waitUntil_timeout _ _ _ _ _ _ _ hWait
  · rcases isServiceInstaller_fatal h with hMsg | ⟨hMsg, -⟩ | ⟨t₀, -, hMsg | ⟨r, -, hWait, rfl⟩⟩
    all_goals first | exact absurd hMsg (by decide) | skip
    have := waitUntil_timeout _ _ _ _ _ _ _ hWait
    omega
  · have hSec : 0 < second := by decide
    by_cases hFail : (!env.installed && !env.installOk) = true
    · exact ⟨0, Nat.zero_le _, .inr ⟨"服务安装执行失败", by simp [isServiceInstaller, hFail]⟩⟩
    -- the wait for the installation ends by 20 seconds and two calls
    obtain ⟨t₀, ht₀, h1⟩ := waitUntil_ends false second (20 * second) hSec hd₁ env.installWait 0 second
      (fun pr h => ⟨hTook₁ pr h, by simp⟩) (by omega) (Nat.zero_le _) (dvd_refl _)
      (by rw [Nat.add_sub_cancel, Nat.mul_div_cancel _ hSec]; omega)
    rcases h1 with h1 | h1 | h1
    · simp only [isServiceInstaller, Bool.not_true, hFail, h1, if_false, Bool.false_eq_true]
      unfold startPhase
      split_ifs
      · exact ⟨t₀ + env.startTook, by omega, .inr ⟨_, rfl⟩⟩
      -- the wait for the start ends by 60 seconds and two calls after it
      obtain ⟨r, hr, h2⟩ := waitUntil_ends true (10 * second) (60 * second) (by omega) hd₂ env.startWait
        0 (10 * second) (fun pr h => ⟨(hTook₂ pr h).1, fun _ => (hTook₂ pr h).2⟩) (by omega)
        (Nat.zero_le _) (dvd_refl _)
        (by rw [Nat.add_sub_cancel, show 60 * second = 6 * (10 * second) by ring,
          Nat.mul_div_cancel _ (by omega)]; omega)
      rcases h2 with h2 | h2 | h2 <;> simp only [h2] <;> exact ⟨t₀ + env.startTook + r, by omega, by simp⟩
    · exact ⟨t₀, by omega, .inr ⟨"服务未能安装", by simp [isServiceInstaller, hFail, h1]⟩⟩
    · exact absurd h1 (waitUntil_not_failed _ _ _ _ _ _)

theorem isServiceUninstaller_never_times_out (env : UninstallerEnv) :
    (∀ t, isServiceUninstaller true env ≠ .fatal "服务未能卸载" t) ∧
      (env.installed = true → (∀ pr ∈ env.uninstallWait, pr.answer = true) →
        ∃ t, isServiceUninstaller true env = .blocked t ∧
          env.uninstallTook + env.uninstallWait.length * second ≤ t) := by
  obtain ⟨hNever, hWaiting⟩ := waitWhile_spec env.uninstallWait env.uninstallTook
  refine ⟨fun t => ?_, fun hInstalled hAll => ?_⟩
  · unfold isServiceUninstaller
    split_ifs
    · simp
    · simp
    · split
      · simp
      · exact absurd ‹_› (hNever _)
      all_goals simp
  · obtain ⟨t, ht, hLe⟩ := hWaiting hAll
    exact ⟨t, by simp [isServiceUninstaller, hInstalled, ht], hLe⟩

/-! ## Elevation -/

/-- What the calls of `ElevateToInstallService` return: each call's error text, `none` for nil. -/
structure ElevateEnv where
  executable : Option String
  getwd : Option String
  shellExecute : Option String
  deriving DecidableEq, Repr

/-- `ElevateToInstallService` and `ElevateToUinstallService`: run this program again through
`ShellExecute` with the verb `runas` and the argument `args`. Every error goes to `log.Fatalf`,
whose message is the error (`.error`); otherwise the elevated process is started with `args`. -/
def elevate (args failed : String) (env : ElevateEnv) : Except String String :=
  match env.executable, env.getwd, env.shellExecute with
  | some err, _, _ => .error ("获取当前程序路径出错" ++ err)
  | none, some err, _ => .error ("获取当前程序工作目录出错" ++ err)
  | none, none, some err => .error (failed ++ err)
  | none, none, none => .ok args

def elevateToInstallService (env : ElevateEnv) : Except String String :=
  elevate "-install" "执行服务安装进程失败：" env

def elevateToUinstallService (env : ElevateEnv) : Except String String :=
  elevate "-uninstall" "执行服务卸载进程失败：" env

end MirageNavi.Windows
