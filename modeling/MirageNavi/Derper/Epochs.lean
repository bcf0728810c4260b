import MirageNavi.Derper.Step

/-! # Epochs follow one another

`main` starts an epoch's serve task only from the head of its loop, and returns to the head only
once `errorGroup.Wait()` has seen all three tasks of the epoch return. So at every moment the
epochs before the current one are over, those after it have not begun, and the listener of an
epoch is open only while its serve task is inside `Serve`: two TLS listeners are never open at
once, and each is bound with the certificate its epoch obtained.
-/

namespace MirageNavi.Derper

open MirageNavi.Tls MirageNavi.Store Proc

set_option autoImplicit false

structure Epoch.Sound (x : Epoch) : Prop where
  listen : x.serve = some .listen → x.listener = .unbound
  bound : x.listener = .bound → x.serve = some .track ∨ x.serve = some .accept
  begun : x.serve ≠ none →
    x.tls = true ∧ ∃ fl env, x.origin = some (fl, env) ∧ obtainCert fl env = .ok x.cert

namespace Epoch.Sound

variable {x : Epoch}

theorem blank : Epoch.blank.Sound :=
  ⟨by rintro ⟨⟩, by rintro ⟨⟩, fun h => absurd rfl h⟩

theorem congr (h : x.Sound) {y : Epoch} (hServe : y.serve = x.serve) (hListener : y.listener = x.listener)
    (hTls : y.tls = x.tls) (hCert : y.cert = x.cert) (hOrigin : y.origin = x.origin) : y.Sound :=
  ⟨by rw [hServe, hListener]; exact h.listen, by rw [hServe, hListener]; exact h.bound,
    by rw [hServe, hTls, hCert, hOrigin]; exact h.begun⟩

theorem begin {n : Nat} {b : Built} {env : CertEnv} (hCert : obtainCert b.flags env = .ok b.cert) :
    (Epoch.begin n b env).Sound :=
  ⟨fun _ => rfl, by rintro ⟨⟩, fun _ => ⟨rfl, b.flags, env, rfl, hCert⟩⟩

theorem close (h : x.Sound) : x.close.Sound where
  listen hServe := by simp [Epoch.close, h.listen hServe]
  bound hBound := by
    simp only [Epoch.close] at hBound
    split_ifs at hBound
    exact h.bound hBound
  begun := h.begun

theorem serveDone (h : x.Sound) (hServe : x.serve ≠ none) (err : ServeError) :
    (x.serveDone err).Sound where
  listen := by rintro ⟨⟩
  bound hBound := by
    simp only [Epoch.serveDone] at hBound
    split_ifs at hBound with hWas
    exact absurd hBound hWas
  begun _ := h.begun hServe

theorem not_bound_of_finished (h : x.Sound) (hFin : x.Finished) : x.listener ≠ .bound := by
  intro hBound
  obtain ⟨err, hDone⟩ := hFin.1
  rcases h.bound hBound with h' | h' <;> rw [hDone] at h' <;> cases h'

end Epoch.Sound

def Proc.Begun (s : Proc) (e : Nat) : Prop := e < s.epoch ∨ e = s.epoch ∧ s.main ≠ .top

instance (s : Proc) (e : Nat) : Decidable (s.Begun e) := inferInstanceAs (Decidable (_ ∨ _))

structure Serial (s : Proc) : Prop where
  future : ∀ e, s.epoch < e → s.ep e = Epoch.blank
  fresh : s.main = .top → s.ep s.epoch = Epoch.blank
  past : ∀ e < s.epoch, (s.ep e).Finished
  sound : ∀ e, (s.ep e).Sound

namespace Serial

variable {s s' : Proc}

theorem init (fl : Flags) (files : Files) (now : Nat) : Serial (start fl files now) :=
  ⟨fun _ _ => rfl, fun _ => rfl, fun _ h => absurd h (Nat.not_lt_zero _), fun _ => Epoch.Sound.blank⟩

theorem active (hI : Serial s) {e : Nat} (hFin : ¬ (s.ep e).Finished) (hBlank : s.ep e ≠ Epoch.blank) :
    e = s.epoch ∧ s.main ≠ .top := by
  have hEq : e = s.epoch := by
    rcases Nat.lt_trichotomy e s.epoch with h | h | h
    · exact absurd (hI.past e h) hFin
    · exact h
    · exact absurd (hI.future e h) hBlank
  exact ⟨hEq, fun hTop => hBlank (hEq ▸ hI.fresh hTop)⟩

theorem of_serve (hI : Serial s) {e : Nat} {pc : ServePc} (hServe : (s.ep e).serve = some pc)
    (hPc : ∀ err, pc ≠ .done err) : e = s.epoch ∧ s.main ≠ .top :=
  hI.active (fun ⟨⟨err, h⟩, _⟩ => hPc err (Option.some.inj (hServe.symm.trans h)))
    (fun h => by rw [h] at hServe; cases hServe)

theorem of_signal (hI : Serial s) {e : Nat} (hSignal : (s.ep e).signal = some true) :
    e = s.epoch ∧ s.main ≠ .top :=
  hI.active (fun ⟨_, h, _⟩ => by rw [hSignal] at h; cases h)
    (fun h => by rw [h] at hSignal; cases hSignal)

theorem of_ticker (hI : Serial s) {e : Nat} {pc : TickerPc} (hTicker : (s.ep e).ticker = some pc)
    (hPc : pc ≠ .done) : e = s.epoch ∧ s.main ≠ .top :=
  hI.active (fun ⟨_, _, h⟩ => by rcases h with h | h <;> rw [hTicker] at h <;> cases h; exact hPc rfl)
    (fun h => by rw [h] at hTicker; cases hTicker)

theorem frame (hI : Serial s) (hEpoch : s'.epoch = s.epoch) (hMain : s'.main = s.main)
    (hEp : s'.ep = s.ep) : Serial s' := by
  obtain ⟨future, fresh, past, sound⟩ := hI
  exact ⟨by rw [hEp, hEpoch]; exact future, by rw [hEp, hEpoch, hMain]; exact fresh,
    by rw [hEp, hEpoch]; exact past, by rw [hEp]; exact sound⟩

theorem current (hI : Serial s) (hEpoch : s'.epoch = s.epoch) (hMain : s'.main ≠ .top)
    (hEp : ∀ e, e ≠ s.epoch → s'.ep e = s.ep e) (hSound : (s'.ep s.epoch).Sound) : Serial s' where
  future e he := by rw [hEp e (by omega)]; exact hI.future e (by omega)
  fresh h := absurd h hMain
  past e he := by rw [hEp e (by omega)]; exact hI.past e (by omega)
  sound e := by
    by_cases h : e = s.epoch
    · exact h ▸ hSound
    · rw [hEp e h]; exact hI.sound e

theorem setup {env : SetupEnv} (hI : Serial s) (h : step s (.setup env) = some s') : Serial s' := by
  obtain ⟨-, rfl⟩ := step_setup h
  unfold Proc.begin
  split
  · exact hI.frame rfl rfl rfl
  · rename_i b hb
    refine hI.current rfl (by simp) (fun e he => by simp [he]) ?_
    simpa using Epoch.Sound.begin (n := s.servers) (setup_spec hb).2.2.2.2.2.2.2

theorem notify (hI : Serial s) (h : step s .notify = some s') : Serial s' := by
  obtain ⟨-, rfl⟩ := step_notify h
  refine hI.current rfl (by simp [Proc.notify]) (fun e he => by simp [Proc.notify, he]) ?_
  simp only [Proc.notify, setEp_ep, if_pos]
  exact (hI.sound s.epoch).congr rfl rfl rfl rfl rfl

theorem wait (hI : Serial s) (h : step s .wait = some s') : Serial s' := by
  obtain ⟨-, hFin, ⟨-, rfl⟩ | ⟨-, rfl⟩⟩ := step_wait h
  · exact ⟨fun e he => hI.future e (by simp at he; omega), fun _ => hI.future _ (by simp),
      fun e he => by
        rcases Nat.lt_succ_iff_lt_or_eq.1 he with he | rfl
        · exact hI.past e he
        · exact hFin,
      hI.sound⟩
  · exact hI.frame rfl rfl rfl

theorem listen {e : Nat} {ok : Bool} (hI : Serial s) (h : step s (.listen e ok) = some s') :
    Serial s' := by
  obtain ⟨hServe, ⟨-, rfl⟩ | ⟨-, rfl⟩⟩ := step_listen h <;>
    obtain ⟨rfl, hTop⟩ := hI.of_serve hServe (by rintro _ ⟨⟩)
  · refine hI.current rfl hTop (fun e he => by simp [he]) ?_
    have hBegun := (hI.sound s.epoch).begun (by simp [hServe])
    exact ⟨by simp, fun _ => by simp, fun _ => by simpa using hBegun⟩
  · refine hI.current rfl hTop (fun e he => by simp [he]) ?_
    have hListener := (hI.sound s.epoch).listen hServe
    have hBegun := (hI.sound s.epoch).begun (by simp [hServe])
    exact ⟨by simp, by simp [hListener], fun _ => by simpa using hBegun⟩

theorem track {e : Nat} (hI : Serial s) (h : step s (.track e) = some s') : Serial s' := by
  obtain ⟨hServe, ⟨-, rfl⟩ | ⟨-, rfl⟩⟩ := step_track h <;>
    obtain ⟨rfl, hTop⟩ := hI.of_serve hServe (by rintro _ ⟨⟩) <;>
    refine hI.current rfl hTop (fun e he => by simp [he]) ?_
  · simpa using (hI.sound s.epoch).serveDone (by simp [hServe]) .serverClosed
  · have hBegun := (hI.sound s.epoch).begun (by simp [hServe])
    exact ⟨by simp, fun _ => by simp, fun _ => by simpa using hBegun⟩

theorem accept {e : Nat} {raw : RawAccept} {allow : Bool} (hI : Serial s)
    (h : step s (.accept e raw allow) = some s') : Serial s' := by
  obtain ⟨hServe, -, hCases⟩ := step_accept h
  obtain ⟨rfl, hTop⟩ := hI.of_serve hServe (by rintro _ ⟨⟩)
  have hSound : ({ s.ep s.epoch with rln := ((s.ep s.epoch).rln.accept raw allow).1 } : Epoch).Sound :=
    (hI.sound s.epoch).congr rfl rfl rfl rfl rfl
  rcases hCases with ⟨-, rfl⟩ | ⟨-, rfl⟩ | ⟨err, -, rfl⟩ <;>
    refine hI.current rfl hTop (fun e he => by simp [he]) ?_
  · simpa using hSound
  · simpa using hSound
  · simpa using hSound.serveDone (by simp [hServe]) err

theorem receive {e : Nat} (hI : Serial s) (h : step s (.receive e) = some s') : Serial s' := by
  obtain ⟨sig, hSignal, -, hCases⟩ := step_receive h
  obtain ⟨rfl, hTop⟩ := hI.of_signal hSignal
  have hClose := (hI.sound s.epoch).close
  rcases hCases with ⟨-, rfl⟩ | ⟨-, rfl⟩
  · refine hI.current rfl hTop (fun e he => by simp [shutdown, he]) ?_
    simp only [shutdown, setEp_ep, if_pos]
    exact hClose.congr rfl rfl rfl rfl rfl
  · exact hI.current rfl hTop (fun e he => by simp [shutdown, he]) (by simpa [shutdown] using hClose)

theorem tick {e : Nat} (hI : Serial s) (h : step s (.tick e) = some s') : Serial s' := by
  obtain ⟨hTicker, -, ⟨-, rfl⟩ | ⟨-, rfl⟩⟩ := step_tick h <;>
    obtain ⟨rfl, hTop⟩ := hI.of_ticker hTicker (by rintro ⟨⟩) <;>
    exact hI.current rfl hTop (fun e he => by simp [he])
      (by simp only [setEp_ep, if_pos]; exact (hI.sound s.epoch).congr rfl rfl rfl rfl rfl)

theorem send {e : Nat} (hI : Serial s) (h : step s (.send e) = some s') : Serial s' := by
  obtain ⟨hTicker, -, rfl⟩ := step_send h
  obtain ⟨rfl, hTop⟩ := hI.of_ticker hTicker (by rintro ⟨⟩)
  exact hI.current rfl hTop (fun e he => by simp [he])
    (by simp only [setEp_ep, if_pos]; exact (hI.sound s.epoch).congr rfl rfl rfl rfl rfl)

theorem step {a : Act} (hI : Serial s) (h : Derper.step s a = some s') : Serial s' := by
  cases a with
  | setup env => exact hI.setup h
  | notify => exact hI.notify h
  | wait => exact hI.wait h
  | listen e ok => exact hI.listen h
  | track e => exact hI.track h
  | accept e raw allow => exact hI.accept h
  | receive e => exact hI.receive h
  | tick e => exact hI.tick h
  | send e => exact hI.send h
  | deliver sig =>
    rcases step_deliver h with ⟨-, rfl⟩ | ⟨-, -, rfl⟩ | ⟨-, -, rfl⟩ <;> exact hI.frame rfl rfl rfl
  | advance d => obtain rfl := step_advance h; exact hI.frame rfl rfl rfl
  | hijack i => obtain ⟨c, -, -, -, -, rfl⟩ := step_hijack h; exact hI.frame rfl rfl rfl
  | hangup i => obtain ⟨c, -, -, rfl⟩ := step_hangup h; exact hI.frame rfl rfl rfl
  | stunListen i ok =>
    obtain ⟨-, ⟨-, rfl⟩ | ⟨-, rfl⟩⟩ := step_stunListen h <;> exact hI.frame rfl rfl rfl

theorem of_reachable (hs : Reachable s) : Serial s :=
  Reachable.induction (fun _ _ _ _ hI h => hI.step h) init hs

theorem past_frozen (hI : Serial s) {a : Act} (h : Derper.step s a = some s') {e : Nat}
    (he : e < s.epoch) : s'.ep e = s.ep e := by
  have hNe : e ≠ s.epoch := he.ne
  cases a
  case' setup => obtain ⟨-, rfl⟩ := step_setup h; unfold Proc.begin; split
  case' notify => obtain ⟨-, rfl⟩ := step_notify h
  case' wait => obtain ⟨-, -, ⟨-, rfl⟩ | ⟨-, rfl⟩⟩ := step_wait h
  case' listen =>
    obtain ⟨hServe, ⟨-, rfl⟩ | ⟨-, rfl⟩⟩ := step_listen h <;>
      obtain ⟨rfl, -⟩ := hI.of_serve hServe (by rintro _ ⟨⟩)
  case' track =>
    obtain ⟨hServe, ⟨-, rfl⟩ | ⟨-, rfl⟩⟩ := step_track h <;>
      obtain ⟨rfl, -⟩ := hI.of_serve hServe (by rintro _ ⟨⟩)
  case' accept =>
    obtain ⟨hServe, -, ⟨-, rfl⟩ | ⟨-, rfl⟩ | ⟨_, -, rfl⟩⟩ := step_accept h <;>
      obtain ⟨rfl, -⟩ := hI.of_serve hServe (by rintro _ ⟨⟩)
  case' receive =>
    obtain ⟨_, hSignal, -, ⟨-, rfl⟩ | ⟨-, rfl⟩⟩ := step_receive h <;>
      obtain ⟨rfl, -⟩ := hI.of_signal hSignal
  case' tick =>
    obtain ⟨hTicker, -, ⟨-, rfl⟩ | ⟨-, rfl⟩⟩ := step_tick h <;>
      obtain ⟨rfl, -⟩ := hI.of_ticker hTicker (by rintro ⟨⟩)
  case' send =>
    obtain ⟨hTicker, -, rfl⟩ := step_send h
    obtain ⟨rfl, -⟩ := hI.of_ticker hTicker (by rintro ⟨⟩)
  case' deliver => obtain ⟨-, rfl⟩ | ⟨-, -, rfl⟩ | ⟨-, -, rfl⟩ := step_deliver h
  case' advance => obtain rfl := step_advance h
  case' hijack => obtain ⟨_, -, -, -, -, rfl⟩ := step_hijack h
  case' hangup => obtain ⟨_, -, -, rfl⟩ := step_hangup h
  case' stunListen => obtain ⟨-, ⟨-, rfl⟩ | ⟨-, rfl⟩⟩ := step_stunListen h
  all_goals simp [shutdown, Proc.notify, hNe]

end Serial

/-! ## A renewal restart

A node in `letsencrypt` mode whose certificate store holds a certificate already inside the
renewal window: the first tick of the renewal task sends `SIGUSR2` and the loop starts a second
epoch. In each epoch one client connects and `/derp` hijacks its connection. -/

def nodeFlags (certMode : CertMode) (port : Int) (ctrlURL : List UInt8) : Flags :=
  ⟨false, true, some port, [], ctrlURL, [0x31], certMode, .none, false, false, false, true⟩

def nodeEnv (cert : CertEnv) : SetupEnv :=
  ⟨⟨[0x2F], ⟨List.replicate 32 7, rfl⟩, ⟨List.replicate 32 8, rfl⟩, false, true⟩, true,
    some ⟨true, some 443, .none, false, false, false, true⟩, true, cert⟩

def renewalCert : CertEnv := ⟨true, true, true, true, [0], true⟩

def renewalEpoch (e : Nat) : List Act :=
  [.setup (nodeEnv renewalCert), .notify, .listen e true, .track e, .accept e .conn true, .hijack e]

def renewalRestart : List Act :=
  [.advance tickPeriod, .tick 0, .send 0, .receive 0, .accept 0 .failure true, .wait]

theorem listeners_serialized (s : Proc) (hs : Reachable s) :
    (∀ e ok s', step s (.listen e ok) = some s' →
      ∀ e' < e, (s.ep e').Finished ∧ (s.ep e').listener ≠ .bound) ∧
    (∀ e, (s.ep e).listener = .bound → (s.ep e).tls = true ∧
      ∃ fl env, (s.ep e).origin = some (fl, env) ∧ obtainCert fl env = .ok (s.ep e).cert) ∧
    (∀ e e', (s.ep e).listener = .bound → (s.ep e').listener = .bound → e = e') := by
  have hI := Serial.of_reachable hs
  have hCurrent : ∀ e, (s.ep e).listener = .bound → e = s.epoch := fun e hBound =>
    ((hI.sound e).bound hBound).elim (fun h => (hI.of_serve h (by rintro _ ⟨⟩)).1)
      (fun h => (hI.of_serve h (by rintro _ ⟨⟩)).1)
  refine ⟨fun e ok s' h e' he' => ?_, fun e hBound => ?_, fun e e' h h' => ?_⟩
  · obtain ⟨rfl, -⟩ := hI.of_serve (step_listen h).1 (by rintro _ ⟨⟩)
    exact ⟨hI.past e' he', (hI.sound e').not_bound_of_finished (hI.past e' he')⟩
  · exact (hI.sound e).begun (by rcases (hI.sound e).bound hBound with h | h <;> simp [h])
  · rw [hCurrent e h, hCurrent e' h']

set_option maxRecDepth 20000 in
theorem listeners_serialized_after_restart :
    ∃ s, run (start (nodeFlags .letsencrypt 443 [0x63]) (fun _ => none) 0)
        (renewalEpoch 0 ++ renewalRestart ++ renewalEpoch 1) = some s ∧
      (s.ep 1).listener = .bound ∧ ∀ e, (s.ep e).listener = .bound → e = 1 := by
  refine (run_satisfies (P := fun s => (s.ep 1).listener = .bound) ?_).imp fun s ⟨hRun, hBound⟩ =>
    ⟨hRun, hBound, fun e h => (listeners_serialized s (.of_run hRun)).2.2 e 1 h hBound⟩
  decide

end MirageNavi.Derper
