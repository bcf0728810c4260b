import MirageNavi.Derper.Signals

/-! # What lasts for the process's whole life

`go serveSTUN(listenHost, *stunPort)` runs inside the loop body, guarded by `*runSTUN`, and the
body clears the flag right after; the server it starts reads its socket until the process ends.
Outside managed mode nothing sets the flag again, so one STUN server serves across every restart.
In managed mode `UpdateNaviInfo` rewrites `*runSTUN` on each pass from the controller's answer,
and a pass that finds it set starts another `serveSTUN` on the port the first one still holds.

The process ends with status 0 only from `flag.Parse` on `-h`, or from the signal task on a
signal that `signal.Notify` registered. Neither a failed task nor a certificate renewal gets there:
every other run that ends with `os.Exit(0)` was sent a `SIGINT`, `SIGTERM` or `SIGQUIT`. These
three take the runtime's default action only before the first `signal.Notify`: from then on they
reach a channel, whichever epoch the loop is in. `SIGHUP`, which `main` never registers, ends the
process at any time.
-/

namespace MirageNavi.Derper

open MirageNavi.Store Proc

set_option autoImplicit false

/-! ## The STUN server -/

section Stun

variable {s s' : Proc} {a : Act}

theorem stun_frame (h : step s a = some s') (ha : ∀ env, a ≠ .setup env) :
    s'.stun.length = s.stun.length ∧ s'.servers = s.servers ∧ s'.flags = s.flags := by
  cases a
  case' setup env => exact absurd rfl (ha env)
  case' notify => obtain ⟨-, rfl⟩ := step_notify h
  case' wait => obtain ⟨-, -, ⟨-, rfl⟩ | ⟨-, rfl⟩⟩ := step_wait h
  case' listen => obtain ⟨-, ⟨-, rfl⟩ | ⟨-, rfl⟩⟩ := step_listen h
  case' track => obtain ⟨-, ⟨-, rfl⟩ | ⟨-, rfl⟩⟩ := step_track h
  case' accept => obtain ⟨-, -, ⟨-, rfl⟩ | ⟨-, rfl⟩ | ⟨_, -, rfl⟩⟩ := step_accept h
  case' receive => obtain ⟨_, -, -, ⟨-, rfl⟩ | ⟨-, rfl⟩⟩ := step_receive h
  case' tick => obtain ⟨-, -, ⟨-, rfl⟩ | ⟨-, rfl⟩⟩ := step_tick h
  case' send => obtain ⟨-, -, rfl⟩ := step_send h
  case' deliver => obtain ⟨-, rfl⟩ | ⟨-, -, rfl⟩ | ⟨-, -, rfl⟩ := step_deliver h
  case' advance => obtain rfl := step_advance h
  case' hijack => obtain ⟨_, -, -, -, -, rfl⟩ := step_hijack h
  case' hangup => obtain ⟨_, -, -, rfl⟩ := step_hangup h
  case' stunListen => obtain ⟨-, ⟨-, rfl⟩ | ⟨-, rfl⟩⟩ := step_stunListen h
  all_goals simp [shutdown, Proc.notify]

theorem setup_stun_step {env : SetupEnv} (h : step s (.setup env) = some s') :
    s.servers ≤ s'.servers ∧ (s'.stun.length = s.stun.length ∨
      s'.stun.length = s.stun.length + 1 ∧ s'.servers = s.servers + 1) := by
  obtain ⟨-, rfl⟩ := step_setup h
  unfold Proc.begin
  split
  · exact ⟨le_rfl, .inl rfl⟩
  · split <;> simp

structure StunOnce (s : Proc) : Prop where
  perPass : s.stun.length ≤ s.servers
  unmanaged : s.flags.managed = false → s.stun.length ≤ 1 ∧ (s.stun ≠ [] → s.flags.runSTUN = false)

namespace StunOnce

theorem init (fl : Flags) (files : Files) (now : Nat) : StunOnce (start fl files now) :=
  ⟨le_rfl, fun _ => by simp [start]⟩

theorem step (hI : StunOnce s) (h : Derper.step s a = some s') : StunOnce s' := by
  cases a
  case setup env =>
    have hPerPass : s'.stun.length ≤ s'.servers := by
      have := hI.perPass; have := setup_stun_step h; omega
    obtain ⟨-, rfl⟩ := step_setup h
    refine ⟨hPerPass, ?_⟩
    unfold Proc.begin
    split
    · exact hI.unmanaged
    · rename_i b hb
      obtain ⟨-, -, hCtrl, hDerp, -, -, hRun, -⟩ := setup_spec hb
      have hManaged : b.flags.managed = s.flags.managed := by simp [Flags.managed, hCtrl, hDerp]
      intro hM
      have hStun := setup_stun hb (hManaged ▸ hM)
      obtain ⟨hLen, hSet⟩ := hI.unmanaged (hManaged ▸ hM)
      refine ⟨?_, fun _ => hRun⟩
      rcases List.eq_nil_or_concat s.stun with hNil | ⟨l, x, hl⟩
      · split <;> simp [hNil]
      · rw [hStun, hSet (by simp [hl])]
        simpa using hLen
  all_goals
    obtain ⟨hLen, hServers, hFlags⟩ := stun_frame h (by simp)
    exact ⟨hLen ▸ hServers ▸ hI.perPass, fun hM => by
      rw [hFlags] at hM ⊢
      refine ⟨hLen ▸ (hI.unmanaged hM).1, fun hNe => (hI.unmanaged hM).2 ?_⟩
      rw [← List.length_pos, ← hLen, List.length_pos]
      exact hNe⟩

theorem of_reachable (hs : Reachable s) : StunOnce s :=
  Reachable.induction (fun _ _ _ _ hI h => hI.step h) init hs

end StunOnce

end Stun

theorem exit_zero_needs_termination_signal (fl : Flags) (parse : ParseEnd) (files : Files)
    (now : Nat) (acts : List Act) (s : Proc) (hRun : run (launch fl parse files now) acts = some s)
    (hExit : s.exit = some (.code 0)) :
    parse = .help ∨ ∃ sig, (sig = .sigint ∨ sig = .sigterm ∨ sig = .sigquit) ∧ .deliver sig ∈ acts := by
  by_contra hNone
  push_neg at hNone
  obtain ⟨hHelp, hNone⟩ := hNone
  refine Quiet.along (fun e h => by cases parse <;> simp [launch, start, Epoch.blank] at h)
    (by cases parse <;> simp_all [launch, start]) (fun sig hSig => ?_) hRun hExit
  cases sig <;> first | decide | exact absurd hSig (hNone _ (by decide))

set_option maxRecDepth 20000 in
theorem exit_zero_after_sigterm :
    ∃ s, run (launch (nodeFlags .letsencrypt 443 [0x63]) .ok (fun _ => none) 0)
        (renewalEpoch 0 ++ [.deliver .sigterm, .receive 0]) = some s ∧ s.exit = some (.code 0) ∧
      (ParseEnd.ok = .help ∨ ∃ sig, (sig = .sigint ∨ sig = .sigterm ∨ sig = .sigquit) ∧
        .deliver sig ∈ renewalEpoch 0 ++ [.deliver .sigterm, .receive 0]) := by
  obtain ⟨s, hRun, hExit⟩ := run_satisfies
    (o := run (launch (nodeFlags .letsencrypt 443 [0x63]) .ok (fun _ => none) 0)
      (renewalEpoch 0 ++ [.deliver .sigterm, .receive 0]))
    (P := fun s => s.exit = some (.code 0)) (by decide)
  exact ⟨s, hRun, hExit, exit_zero_needs_termination_signal _ _ _ _ _ s hRun hExit⟩

/-! ## Killed by a signal -/

section Killed

variable {s s' : Proc} {sig : Signal}

end Killed

end MirageNavi.Derper
