import MirageNavi.Derper.Epochs

/-! # Failures and signals

`errorGroup.Wait()` returns only once all three tasks of the epoch have, and the signal task of
an epoch is the only reader of its `sigc`. So a serve task that fails, by a bind error or by a
refused connection, leaves the process up without a listener until a signal or a renewal tick
arrives. The registration of `sigc` is never undone, so a termination signal sent after one
epoch's signal task has returned and before the next epoch's `Notify` lands in a channel nobody
reads. `SIGUSR2` is not among the signals any `Notify` call asks for, so when it comes from
outside the process it does nothing.
-/

namespace MirageNavi.Derper

open MirageNavi.Tls MirageNavi.Store Proc

set_option autoImplicit false

/-! ## A serve task that fails -/

def manualCert : CertEnv := ⟨false, false, false, false, [], true⟩

structure Stalled (s : Proc) : Prop where
  exit : s.exit = none
  main : s.main = .wait
  serve : ∃ err, (s.ep s.epoch).serve = some (.done err)
  signal : (s.ep s.epoch).signal = some true
  ticker : (s.ep s.epoch).ticker = none
  chan : s.chan s.epoch = none
  stun : ∀ i : Nat, s.stun[i]? ≠ some false

namespace Stalled

variable {s s' : Proc}

theorem step (hI : Serial s) (hS : Stalled s) {a : Act} (h : Derper.step s a = some s')
    (ha : ∀ sig, a = .deliver sig → sig = .sigusr2) : Stalled s' := by
  obtain ⟨err, hDone⟩ := hS.serve
  have hNotServing : ∀ {e pc}, (s.ep e).serve = some pc → (∀ err, pc ≠ .done err) → False :=
    fun hServe hPc => by
      obtain ⟨rfl, -⟩ := hI.of_serve hServe hPc
      rw [hDone] at hServe
      exact hPc err (Option.some.inj hServe).symm
  have hFrame : ∀ t : Proc, t.exit = s.exit → t.main = s.main → t.epoch = s.epoch → t.ep = s.ep →
      t.chan = s.chan → t.stun = s.stun → Stalled t := fun t h₁ h₂ h₃ h₄ h₅ h₆ =>
    ⟨h₁ ▸ hS.exit, h₂ ▸ hS.main, ⟨err, h₃ ▸ h₄ ▸ hDone⟩, h₃ ▸ h₄ ▸ hS.signal, h₃ ▸ h₄ ▸ hS.ticker,
      h₃ ▸ h₅ ▸ hS.chan, h₆ ▸ hS.stun⟩
  cases a with
  | setup => exact absurd (hS.main.symm.trans (step_setup h).1) (by decide)
  | notify => exact absurd (hS.main.symm.trans (step_notify h).1) (by decide)
  | wait =>
    obtain ⟨-, ⟨-, hSignal, -⟩, -⟩ := step_wait h
    rw [hS.signal] at hSignal
    cases hSignal
  | listen => exact (hNotServing (step_listen h).1 (by rintro _ ⟨⟩)).elim
  | track => exact (hNotServing (step_track h).1 (by rintro _ ⟨⟩)).elim
  | accept => exact (hNotServing (step_accept h).1 (by rintro _ ⟨⟩)).elim
  | receive =>
    obtain ⟨_, hSignal, hChan, -⟩ := step_receive h
    obtain ⟨rfl, -⟩ := hI.of_signal hSignal
    rw [hS.chan] at hChan
    cases hChan
  | tick =>
    obtain ⟨hTicker, -⟩ := step_tick h
    obtain ⟨rfl, -⟩ := hI.of_ticker hTicker (by rintro ⟨⟩)
    rw [hS.ticker] at hTicker
    cases hTicker
  | send =>
    obtain ⟨hTicker, -⟩ := step_send h
    obtain ⟨rfl, -⟩ := hI.of_ticker hTicker (by rintro ⟨⟩)
    rw [hS.ticker] at hTicker
    cases hTicker
  | deliver sig =>
    obtain rfl := ha sig rfl
    rcases step_deliver h with ⟨-, rfl⟩ | ⟨hSig, -⟩ | ⟨hSig, -⟩
    · exact hS
    all_goals exact absurd rfl hSig
  | advance => obtain rfl := step_advance h; exact hFrame _ rfl rfl rfl rfl rfl rfl
  | hijack => obtain ⟨_, -, -, -, -, rfl⟩ := step_hijack h; exact hFrame _ rfl rfl rfl rfl rfl rfl
  | hangup => obtain ⟨_, -, -, rfl⟩ := step_hangup h; exact hFrame _ rfl rfl rfl rfl rfl rfl
  | stunListen i => exact absurd (step_stunListen h).1 (hS.stun i)

theorem along {acts : List Act} (hs : Reachable s) (hS : Stalled s)
    (hActs : ∀ sig, .deliver sig ∈ acts → sig = .sigusr2) (hRun : run s acts = some s') :
    Stalled s' := by
  induction acts generalizing s with
  | nil => cases hRun; exact hS
  | cons a as ih =>
    obtain ⟨s₁, h₁, h₂⟩ := Option.bind_eq_some.1 hRun
    refine ih (hs.next h₁) (hS.step (Serial.of_reachable hs) h₁ fun sig hSig => ?_)
      (fun sig hSig => hActs sig (List.mem_cons_of_mem _ hSig)) h₂
    exact hActs sig (hSig ▸ List.mem_cons_self _ _)

end Stalled

set_option maxRecDepth 20000 in
theorem bind_failure_waits_for_signal :
    ∃ s, run (start (nodeFlags .manual 443 []) (fun _ => none) 0)
        [.setup (nodeEnv manualCert), .notify, .listen 0 false] = some s ∧
      (s.ep 0).serve = some (.done .listen) ∧
      ∀ acts s', (∀ sig, .deliver sig ∈ acts → sig = .sigusr2) → run s acts = some s' →
        s'.exit = none := by
  refine (run_satisfies (P := fun s => s.epoch = 0 ∧ s.exit = none ∧ s.main = .wait ∧
      (s.ep s.epoch).serve = some (.done .listen) ∧ (s.ep s.epoch).signal = some true ∧
      (s.ep s.epoch).ticker = none ∧ s.chan s.epoch = none ∧ s.stun = []) ?_).imp
    fun s ⟨hRun, hEpoch, hExit, hMain, hServe, hSignal, hTicker, hChan, hStun⟩ =>
      ⟨hRun, hEpoch ▸ hServe, fun acts s' hActs hRun' =>
        (Stalled.along (.of_run hRun) ⟨hExit, hMain, ⟨_, hServe⟩, hSignal, hTicker, hChan,
          by simp [hStun]⟩ hActs hRun').exit⟩
  decide

theorem refusal_ends_serving {s s' : Proc} {e : Nat} (h : step s (.accept e .conn false) = some s')
    (hDown : (s.ep e).shuttingDown = false) :
    (s'.ep e).serve = some (.done .limitedConn) ∧ (s'.ep e).listener ≠ .bound ∧
      (s'.ep e).rln = ⟨(s.ep e).rln.numAccepts, (s.ep e).rln.numRejects + 1⟩ := by
  obtain ⟨-, -, ⟨hServe, -⟩ | ⟨hRetry, -⟩ | ⟨err, hStop, rfl⟩⟩ := step_accept h
  · simp [RateLimitedListener.accept, onAccept, hDown] at hServe
  · simp [RateLimitedListener.accept, onAccept, hDown] at hRetry
  · simp only [RateLimitedListener.accept, onAccept, hDown, Bool.not_false, if_true,
      Bool.false_eq_true, if_false, ServeStep.stop.injEq] at hStop
    subst hStop
    refine ⟨by simp [Epoch.serveDone], ?_, by simp [Epoch.serveDone, RateLimitedListener.accept]⟩
    simp only [setEp_ep, if_pos, Epoch.serveDone]
    split_ifs with hBound
    · simp
    · exact hBound

set_option maxRecDepth 20000 in
theorem refusal_ends_serving_manual :
    ∃ s s', run (start (nodeFlags .manual 443 []) (fun _ => none) 0)
        [.setup (nodeEnv manualCert), .notify, .listen 0 true, .track 0] = some s ∧
      step s (.accept 0 .conn false) = some s' ∧ (s'.ep 0).serve = some (.done .limitedConn) := by
  obtain ⟨s, hRun, hDown, hEnabled⟩ := run_satisfies
    (o := run (start (nodeFlags .manual 443 []) (fun _ => none) 0)
      [.setup (nodeEnv manualCert), .notify, .listen 0 true, .track 0])
    (P := fun s => (s.ep 0).shuttingDown = false ∧ (step s (.accept 0 .conn false)).isSome) (by decide)
  obtain ⟨s', h⟩ := Option.isSome_iff_exists.1 hEnabled
  exact ⟨s, s', hRun, h, (refusal_ends_serving h hDown).1⟩

def failedIssuance : CertEnv := ⟨true, true, false, true, [0], true⟩

set_option maxRecDepth 20000 in
theorem failed_issuance_served :
    ∃ s, run (start (nodeFlags .letsencrypt 8443 []) (fun _ => none) 100)
        [.setup (nodeEnv failedIssuance), .notify, .listen 0 true] = some s ∧
      (s.ep 0).listener = .bound ∧ (s.ep 0).cert.issued = some false ∧
      (s.ep 0).cert.expires < s.now :=
  run_satisfies (by decide)

/-! ## Signals -/

def Quiet (s : Proc) : Prop :=
  ∀ e, (s.ep e).signal = some true → ∀ sig, s.chan e = some sig → sig = .sigusr2

namespace Quiet

variable {s s' : Proc}

theorem of_current (hI : Serial s) (hChan : s.chan s.epoch = none) : Quiet s := fun e hSignal sig h => by
  obtain ⟨rfl, -⟩ := hI.of_signal hSignal
  rw [hChan] at h
  cases h

theorem frame (hQ : Quiet s) (hSignal : ∀ e, (s'.ep e).signal = (s.ep e).signal)
    (hChan : s'.chan = s.chan) : Quiet s' := fun e h sig hc =>
  hQ e ((hSignal e).symm.trans h) sig (hChan ▸ hc)

theorem step (hQ : Quiet s) {a : Act} (h : Derper.step s a = some s')
    (ha : ∀ sig, a = .deliver sig → sig = .sigusr2 ∨ sig = .sighup) :
    Quiet s' ∧ s'.exit ≠ some (.code 0) := by
  have hExit : s.exit = none := exit_none_of_step h
  cases a with
  | setup env =>
    obtain ⟨-, rfl⟩ := step_setup h
    unfold Proc.begin
    split
    · rename_i x hx
      refine ⟨hQ.frame (fun _ => rfl) rfl, ?_⟩
      rcases setup_error hx with rfl | rfl <;> simp
    · refine ⟨fun e hSignal sig hChan => ?_, by simp [hExit]⟩
      by_cases he : e = s.epoch
      · simp [he, Epoch.begin, Epoch.blank] at hSignal
      · simp only [setEp_ep, he, if_false] at hSignal
        exact hQ e hSignal sig hChan
  | notify =>
    obtain ⟨-, rfl⟩ := step_notify h
    refine ⟨fun e hSignal sig hChan => ?_, by simp [Proc.notify, hExit]⟩
    by_cases he : e = s.epoch
    · simp [Proc.notify, he] at hChan
    · simp only [Proc.notify, setEp_ep, he, if_false, Function.update_noteq he] at hSignal hChan
      exact hQ e hSignal sig hChan
  | wait =>
    obtain ⟨-, -, ⟨-, rfl⟩ | ⟨-, rfl⟩⟩ := step_wait h
    · exact ⟨hQ.frame (fun _ => rfl) rfl, by simp [hExit]⟩
    · exact ⟨hQ.frame (fun _ => rfl) rfl, by simp⟩
  | listen e =>
    obtain ⟨-, ⟨-, rfl⟩ | ⟨-, rfl⟩⟩ := step_listen h <;>
      exact ⟨hQ.frame (fun e' => by by_cases he : e' = e <;> simp [he]) rfl, by simp [hExit]⟩
  | track e =>
    obtain ⟨-, ⟨-, rfl⟩ | ⟨-, rfl⟩⟩ := step_track h <;>
      exact ⟨hQ.frame (fun e' => by by_cases he : e' = e <;> simp [he, Epoch.serveDone]) rfl,
        by simp [hExit]⟩
  | accept e =>
    obtain ⟨-, -, ⟨-, rfl⟩ | ⟨-, rfl⟩ | ⟨_, -, rfl⟩⟩ := step_accept h <;>
      exact ⟨hQ.frame (fun e' => by by_cases he : e' = e <;> simp [he, Epoch.serveDone]) rfl,
        by simp [hExit]⟩
  | receive e =>
    obtain ⟨sig, hSignal, hChan, ⟨-, rfl⟩ | ⟨hSig, -⟩⟩ := step_receive h
    · refine ⟨fun e' hSignal' sig' hChan' => ?_, by simp [shutdown, hExit]⟩
      by_cases he : e' = e
      · simp [shutdown, he] at hSignal'
      · simp [shutdown, he, Function.update_noteq he, Epoch.close] at hSignal' hChan'
        exact hQ e' hSignal' sig' hChan'
    · exact absurd (hQ e hSignal sig hChan) hSig
  | tick e =>
    obtain ⟨-, -, ⟨-, rfl⟩ | ⟨-, rfl⟩⟩ := step_tick h <;>
      exact ⟨hQ.frame (fun e' => by by_cases he : e' = e <;> simp [he]) rfl, by simp [hExit]⟩
  | send e =>
    obtain ⟨-, -, rfl⟩ := step_send h
    refine ⟨fun e' hSignal' sig' hChan' => ?_, by simp [hExit]⟩
    by_cases he : e' = e
    · subst he
      simpa using hChan'.symm
    · simp only [setEp_ep, he, if_false, Function.update_noteq he] at hSignal' hChan'
      exact hQ e' hSignal' sig' hChan'
  | deliver sig =>
    rcases step_deliver h with ⟨-, rfl⟩ | ⟨-, -, rfl⟩ | ⟨hUsr2, ⟨hHup, -⟩, -⟩
    · exact ⟨hQ, by simp [hExit]⟩
    · exact ⟨hQ, by simp⟩
    · exact absurd ((ha sig rfl).resolve_left hUsr2) hHup
  | advance => obtain rfl := step_advance h; exact ⟨hQ, by simp [hExit]⟩
  | hijack => obtain ⟨_, -, -, -, -, rfl⟩ := step_hijack h; exact ⟨hQ, by simp [hExit]⟩
  | hangup => obtain ⟨_, -, -, rfl⟩ := step_hangup h; exact ⟨hQ, by simp [hExit]⟩
  | stunListen =>
    obtain ⟨-, ⟨-, rfl⟩ | ⟨-, rfl⟩⟩ := step_stunListen h
    · exact ⟨hQ, by simp [hExit]⟩
    · exact ⟨hQ, by simp⟩

theorem along {acts : List Act} (hQ : Quiet s) (hExit : s.exit ≠ some (.code 0))
    (hActs : ∀ sig, .deliver sig ∈ acts → sig = .sigusr2 ∨ sig = .sighup) (hRun : run s acts = some s') :
    s'.exit ≠ some (.code 0) := by
  induction acts generalizing s with
  | nil => cases hRun; exact hExit
  | cons a as ih =>
    obtain ⟨s₁, h₁, h₂⟩ := Option.bind_eq_some.1 hRun
    obtain ⟨hQ₁, hExit₁⟩ := hQ.step h₁ fun sig hSig => hActs sig (hSig ▸ List.mem_cons_self _ _)
    exact ih hQ₁ hExit₁ (fun sig hSig => hActs sig (List.mem_cons_of_mem _ hSig)) h₂

end Quiet

theorem notified_eq_range {s : Proc} (hs : Reachable s) :
    s.notified = List.range (if s.main = .wait then s.epoch + 1 else s.epoch) := by
  refine Reachable.induction (P := fun s =>
    s.notified = List.range (if s.main = .wait then s.epoch + 1 else s.epoch))
    (fun s a s' _ hP h => ?_) (fun _ _ _ => rfl) hs
  cases ha : a.isMain
  · obtain ⟨hEpoch, hMain, hNotified, -⟩ := main_frame h ha
    rw [hEpoch, hMain, hNotified]
    exact hP
  cases a with
  | setup env =>
    obtain ⟨hTop, rfl⟩ := step_setup h
    unfold Proc.begin
    split <;> simpa [hTop] using hP
  | notify =>
    obtain ⟨hNotify, rfl⟩ := step_notify h
    simp only [hNotify, reduceCtorEq, if_false] at hP
    simp [Proc.notify, hP, List.range_succ]
  | wait =>
    obtain ⟨hWait, -, ⟨-, rfl⟩ | ⟨-, rfl⟩⟩ := step_wait h <;> simpa [hWait] using hP
  | _ => cases ha

theorem termination_signal_exits (s : Proc) (hs : Reachable s) (hExit : s.exit = none)
    (hWait : s.main = .wait) (hSignal : (s.ep s.epoch).signal = some true)
    (hChan : s.chan s.epoch = none) (sig : Signal) (hSig : sig = .sigint ∨ sig = .sigterm ∨ sig = .sigquit) :
    ∃ s₁ s₂, step s (.deliver sig) = some s₁ ∧ step s₁ (.receive s.epoch) = some s₂ ∧
      s₂.exit = some (.code 0) := by
  obtain ⟨hUsr2, hHup⟩ : sig ≠ .sigusr2 ∧ sig ≠ .sighup := by rcases hSig with rfl | rfl | rfl <;> decide
  have hMem : s.epoch ∈ s.notified := by simp [notified_eq_range hs, hWait]
  have hNotified : s.notified ≠ [] := List.ne_nil_of_mem hMem
  have hDeliver : s.deliverTo sig s.epoch = some sig := by simp [deliverTo, hMem, hChan]
  let s₁ : Proc := { s with chan := s.deliverTo sig }
  refine ⟨s₁, { ({ s₁ with chan := Function.update s₁.chan s.epoch none }).shutdown s.epoch with
    exit := some (.code 0) }, by simp [step, hExit, hUsr2, hHup, hNotified, s₁], ?_, rfl⟩
  simp [step, s₁, hExit, hSignal, hDeliver, hUsr2]

set_option maxRecDepth 20000 in
theorem termination_signal_exits_renewal :
    ∃ s s₁ s₂, run (start (nodeFlags .letsencrypt 443 [0x63]) (fun _ => none) 0) (renewalEpoch 0) =
        some s ∧ step s (.deliver .sigterm) = some s₁ ∧ step s₁ (.receive 0) = some s₂ ∧
      s₂.exit = some (.code 0) := by
  obtain ⟨s, hRun, hExit, hWait, hEpoch, hSignal, hChan⟩ := run_satisfies
    (o := run (start (nodeFlags .letsencrypt 443 [0x63]) (fun _ => none) 0) (renewalEpoch 0))
    (P := fun s => s.exit = none ∧ s.main = .wait ∧ s.epoch = 0 ∧
      (s.ep s.epoch).signal = some true ∧ s.chan s.epoch = none) (by decide)
  obtain ⟨s₁, s₂, h₁, h₂, h₃⟩ :=
    termination_signal_exits s (.of_run hRun) hExit hWait hSignal hChan .sigterm (by decide)
  exact ⟨s, s₁, s₂, hRun, h₁, hEpoch ▸ h₂, h₃⟩

theorem run_without_sigusr2 :
    ∀ (acts : List Act) {s s' : Proc}, run s acts = some s' →
      run s (acts.filter (· ≠ .deliver .sigusr2)) = some s'
  | [], _, _, h => h
  | a :: as, s, s', h => by
    obtain ⟨s₁, h₁, h₂⟩ := Option.bind_eq_some.1 h
    by_cases ha : a = .deliver .sigusr2
    · subst ha
      rcases step_deliver h₁ with ⟨-, rfl⟩ | ⟨hSig, -⟩ | ⟨hSig, -⟩
      · simpa using run_without_sigusr2 as h₂
      all_goals exact absurd rfl hSig
    · rw [List.filter_cons_of_pos (by simpa using ha)]
      simp only [run, h₁, Option.bind_some]
      exact run_without_sigusr2 as h₂

def lostSignal : List Act :=
  [.advance tickPeriod, .tick 0, .send 0, .receive 0, .deliver .sigint, .accept 0 .failure true,
    .wait]

set_option maxRecDepth 20000 in
theorem operator_signals_ignored :
    (∃ s, run (start (nodeFlags .letsencrypt 443 [0x63]) (fun _ => none) 0)
        (renewalEpoch 0 ++ lostSignal ++ renewalEpoch 1) = some s ∧
      s.exit = none ∧ (s.ep 1).listener = .bound ∧ s.chan 0 = some .sigint ∧
      ∀ acts s', (∀ sig, .deliver sig ∈ acts → sig = .sigusr2) → run s acts = some s' →
        s'.exit ≠ some (.code 0)) ∧
    ∀ (acts : List Act) (s s' : Proc), run s acts = some s' →
      run s (acts.filter (· ≠ .deliver .sigusr2)) = some s' := by
  refine ⟨(run_satisfies (P := fun s => s.exit = none ∧ (s.ep 1).listener = .bound ∧
      s.chan 0 = some .sigint ∧ s.chan s.epoch = none) ?_).imp
    fun s ⟨hRun, hExit, hBound, hLost, hChan⟩ =>
      ⟨hRun, hExit, hBound, hLost, fun acts s' hActs hRun' =>
        (Quiet.of_current (Serial.of_reachable (.of_run hRun)) hChan).along (by simp [hExit])
          (fun sig h => .inl (hActs sig h)) hRun'⟩,
    fun acts _ _ h => run_without_sigusr2 acts h⟩
  decide

end MirageNavi.Derper
