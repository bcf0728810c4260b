import MirageNavi.Derper.Epochs

/-! # What a restart leaves behind

Every pass of `main`'s loop makes a new `derp.Server` and wires `/derp` of its own listener to
it, starts a `Cronjob` in managed mode and a certmagic cache in `letsencrypt` mode, and registers a
new channel with `signal.Notify`; nothing the pass started is stopped when it ends. So a relay
connection stays with the server of the epoch that accepted it, the registrations of all earlier
epochs stay live, and `tls_listener` keeps publishing the counters of the first listener bound.
-/

namespace MirageNavi.Derper

open MirageNavi.Tls MirageNavi.Store Proc

set_option autoImplicit false

/-! ## Relay servers -/

section Relay

variable {s s' : Proc} {a : Act}

def Act.isConn : Act → Bool
  | .accept .. | .receive _ | .hijack _ | .hangup _ => true
  | _ => false

theorem conns_frame (h : step s a = some s') (ha : a.isConn = false) : s'.conns = s.conns := by
  cases a
  case' accept | receive | hijack | hangup => cases ha
  case' setup => obtain ⟨-, rfl⟩ := step_setup h; unfold Proc.begin; split
  case' notify => obtain ⟨-, rfl⟩ := step_notify h
  case' wait => obtain ⟨-, -, ⟨-, rfl⟩ | ⟨-, rfl⟩⟩ := step_wait h
  case' listen => obtain ⟨-, ⟨-, rfl⟩ | ⟨-, rfl⟩⟩ := step_listen h
  case' track => obtain ⟨-, ⟨-, rfl⟩ | ⟨-, rfl⟩⟩ := step_track h
  case' tick => obtain ⟨-, -, ⟨-, rfl⟩ | ⟨-, rfl⟩⟩ := step_tick h
  case' send => obtain ⟨-, -, rfl⟩ := step_send h
  case' deliver => obtain ⟨-, rfl⟩ | ⟨-, -, rfl⟩ | ⟨-, -, rfl⟩ := step_deliver h
  case' advance => obtain rfl := step_advance h
  case' stunListen => obtain ⟨-, ⟨-, rfl⟩ | ⟨-, rfl⟩⟩ := step_stunListen h
  all_goals rfl

theorem conns_step (h : step s a = some s') {c : Conn} (hc : c ∈ s'.conns) :
    (∃ c₀ ∈ s.conns, c₀.epoch = c.epoch ∧
      (c.server = c₀.server ∨ c₀.server = none ∧ c.server = some (s.ep c₀.epoch).server)) ∨
    (∃ e raw allow, a = .accept e raw allow ∧ (s.ep e).serve = some .accept ∧ c.epoch = e ∧
      c.server = none) := by
  cases hConn : a.isConn
  · rw [conns_frame h hConn] at hc
    exact .inl ⟨c, hc, rfl, .inl rfl⟩
  cases a with
  | accept e raw allow =>
    obtain ⟨hServe, -, ⟨-, rfl⟩ | ⟨-, rfl⟩ | ⟨_, -, rfl⟩⟩ := step_accept h
    · rcases List.mem_append.1 hc with hc | hc
      · exact .inl ⟨c, hc, rfl, .inl rfl⟩
      · obtain rfl := List.mem_singleton.1 hc
        exact .inr ⟨e, raw, allow, rfl, hServe, rfl, rfl⟩
    all_goals exact .inl ⟨c, hc, rfl, .inl rfl⟩
  | receive =>
    obtain ⟨_, -, -, ⟨-, rfl⟩ | ⟨-, rfl⟩⟩ := step_receive h <;>
      obtain ⟨c₀, hc₀, rfl⟩ := List.mem_map.1 hc <;>
      exact .inl ⟨c₀, hc₀, by split_ifs <;> exact ⟨rfl, .inl rfl⟩⟩
  | hijack i =>
    obtain ⟨c₀, hc₀, -, hNone, -, rfl⟩ := step_hijack h
    rcases List.mem_or_eq_of_mem_set hc with hc | rfl
    · exact .inl ⟨c, hc, rfl, .inl rfl⟩
    · exact .inl ⟨c₀, List.getElem?_mem hc₀, rfl, .inr ⟨hNone, rfl⟩⟩
  | hangup i =>
    obtain ⟨c₀, hc₀, -, rfl⟩ := step_hangup h
    rcases List.mem_or_eq_of_mem_set hc with hc | rfl
    · exact .inl ⟨c, hc, rfl, .inl rfl⟩
    · exact .inl ⟨c₀, List.getElem?_mem hc₀, rfl, .inl rfl⟩
  | _ => cases hConn

theorem hijacked_kept (h : step s a = some s') {i : Nat} (ha : a ≠ .hangup i) {c : Conn}
    (hc : s.conns[i]? = some c) (hHijacked : c.server ≠ none) : s'.conns[i]? = some c := by
  cases hConn : a.isConn
  · rw [conns_frame h hConn]
    exact hc
  cases a with
  | accept =>
    obtain ⟨-, -, ⟨-, rfl⟩ | ⟨-, rfl⟩ | ⟨_, -, rfl⟩⟩ := step_accept h
    · rw [List.getElem?_append_left (List.getElem?_eq_some_iff.1 hc).1, hc]
    all_goals exact hc
  | receive =>
    obtain ⟨_, -, -, ⟨-, rfl⟩ | ⟨-, rfl⟩⟩ := step_receive h <;>
      simp [shutdown, hc, hHijacked]
  | hijack j =>
    obtain ⟨c₀, hc₀, -, hNone, -, rfl⟩ := step_hijack h
    have hij : j ≠ i := by rintro rfl; rw [hc] at hc₀; cases hc₀; exact hHijacked hNone
    rw [List.getElem?_set_ne hij, hc]
  | hangup j =>
    obtain ⟨c₀, -, -, rfl⟩ := step_hangup h
    have hij : j ≠ i := fun hji => ha (hji ▸ rfl)
    rw [List.getElem?_set_ne hij, hc]
  | _ => cases hConn

structure Attached (s : Proc) : Prop where
  servers : s.servers = if s.main = .top then s.epoch else s.epoch + 1
  server : ∀ e, s.Begun e → (s.ep e).server = e
  conns : ∀ c ∈ s.conns, s.Begun c.epoch ∧ ∀ n, c.server = some n → n = c.epoch

namespace Attached

theorem init (fl : Flags) (files : Files) (now : Nat) : Attached (start fl files now) :=
  ⟨rfl, fun _ h => by simp [Proc.Begun, start] at h, fun _ h => by cases h⟩

theorem of_frame (hA : Attached s) (hI : Serial s) (h : step s a = some s') (ha : a.isMain = false) :
    Attached s' := by
  obtain ⟨hEpoch, hMain, -, hServers, -, -⟩ := main_frame h ha
  have hBegun : ∀ e, s'.Begun e ↔ s.Begun e := by simp [Proc.Begun, hEpoch, hMain]
  have hServer : ∀ e, (s'.ep e).server = (s.ep e).server := fun e =>
    congrArg Prod.fst (built_frame h (by rintro env rfl; cases ha) e)
  refine ⟨by rw [hServers, hMain, hEpoch]; exact hA.servers,
    fun e he => by rw [hServer]; exact hA.server e ((hBegun e).1 he), fun c hc => ?_⟩
  rcases conns_step h hc with ⟨c₀, hc₀, hEp, hServer₀ | ⟨-, hServer₀⟩⟩ | ⟨e, raw, allow, -, hServe, hEp, hNone⟩
  · obtain ⟨hBegun₀, hOld⟩ := hA.conns c₀ hc₀
    rw [hBegun, ← hEp, hServer₀]
    exact ⟨hBegun₀, fun n hn => hEp ▸ hOld n hn⟩
  · obtain ⟨hBegun₀, -⟩ := hA.conns c₀ hc₀
    rw [hBegun, ← hEp, hServer₀, hA.server _ hBegun₀]
    exact ⟨hBegun₀, fun n hn => (Option.some.inj hn).symm⟩
  · obtain ⟨rfl, hTop⟩ := hI.of_serve hServe (by rintro _ ⟨⟩)
    rw [hBegun, hEp, hNone]
    exact ⟨.inr ⟨rfl, hTop⟩, fun _ hn => by cases hn⟩

theorem step (hA : Attached s) (hI : Serial s) (h : Derper.step s a = some s') : Attached s' := by
  cases ha : a.isMain
  · exact hA.of_frame hI h ha
  cases a with
  | setup env =>
    obtain ⟨hTop, rfl⟩ := step_setup h
    unfold Proc.begin
    split
    · exact ⟨hA.servers, hA.server, hA.conns⟩
    · have hServers : s.servers = s.epoch := by simpa [hTop] using hA.servers
      have hBegun : ∀ e, s.Begun e → e < s.epoch := fun e he => by
        simpa [Proc.Begun, hTop] using he
      refine ⟨by simp [hServers], fun e he => ?_, fun c hc => ?_⟩
      · by_cases hEq : e = s.epoch
        · simp [hEq, Epoch.begin, hServers]
        · simpa [hEq] using hA.server e (by simpa [Proc.Begun, hEq] using he)
      · obtain ⟨hBegun₀, hOld⟩ := hA.conns c hc
        exact ⟨.inl (hBegun _ hBegun₀), hOld⟩
  | notify =>
    obtain ⟨hNotify, rfl⟩ := step_notify h
    have hBegun : ∀ e, s.notify.Begun e ↔ s.Begun e := by simp [Proc.Begun, Proc.notify, hNotify]
    refine ⟨by simpa [Proc.notify, hNotify] using hA.servers, fun e he => ?_, fun c hc => ?_⟩
    · by_cases hEq : e = s.epoch
      · simpa [Proc.notify, hEq, Epoch.notify] using hA.server e ((hBegun e).1 he)
      · simpa [Proc.notify, hEq] using hA.server e ((hBegun e).1 he)
    · rw [hBegun]; exact hA.conns c hc
  | wait =>
    obtain ⟨hWait, -, ⟨-, rfl⟩ | ⟨-, rfl⟩⟩ := step_wait h
    · have hBegun : ∀ e, e < s.epoch + 1 ↔ s.Begun e := fun e => by
        simp [Proc.Begun, hWait]; omega
      refine ⟨by simpa [hWait] using hA.servers, fun e he => ?_, fun c hc => ?_⟩
      · exact hA.server e ((hBegun e).1 (by simpa [Proc.Begun] using he))
      · obtain ⟨hBegun₀, hOld⟩ := hA.conns c hc
        exact ⟨.inl ((hBegun _).2 hBegun₀), hOld⟩
    · exact ⟨hA.servers, hA.server, hA.conns⟩
  | _ => cases ha

theorem of_reachable (hs : Reachable s) : Attached s :=
  Reachable.induction (fun _ _ _ hs hA h => hA.step (Serial.of_reachable hs) h) init hs

end Attached

end Relay

theorem relay_servers_per_epoch (s : Proc) (hs : Reachable s) :
    (∀ c ∈ s.conns, ∀ n, c.server = some n → n = (s.ep c.epoch).server) ∧
    (∀ c ∈ s.conns, ∀ c' ∈ s.conns, c.server ≠ none → c'.server ≠ none →
      (c.server = c'.server ↔ c.epoch = c'.epoch)) ∧
    (∀ a s' i c, step s a = some s' → a ≠ .hangup i → s.conns[i]? = some c → c.server ≠ none →
      s'.conns[i]? = some c) := by
  have hA := Attached.of_reachable hs
  have hAttached : ∀ c ∈ s.conns, c.server ≠ none → c.server = some c.epoch := fun c hc hSome => by
    obtain ⟨n, hn⟩ := Option.ne_none_iff_exists'.1 hSome
    rw [hn, (hA.conns c hc).2 n hn]
  refine ⟨fun c hc n hn => ?_, fun c hc c' hc' h h' => ?_, fun a s' i c h ha hc => hijacked_kept h ha hc⟩
  · obtain ⟨hBegun, hOld⟩ := hA.conns c hc
    rw [hA.server _ hBegun, hOld n hn]
  · rw [hAttached c hc h, hAttached c' hc' h', Option.some_inj]

set_option maxRecDepth 20000 in
theorem relay_servers_after_restart :
    ∃ s, run (start (nodeFlags .letsencrypt 443 [0x63]) (fun _ => none) 0)
        (renewalEpoch 0 ++ renewalRestart ++ renewalEpoch 1) = some s ∧
      s.conns.length = 2 ∧ ∀ c ∈ s.conns, ∀ n, c.server = some n → n = (s.ep c.epoch).server := by
  refine (run_satisfies (P := fun s => s.conns.length = 2) ?_).imp fun s ⟨hRun, hLength⟩ =>
    ⟨hRun, hLength, (relay_servers_per_epoch s (.of_run hRun)).1⟩
  decide

set_option maxRecDepth 20000 in
theorem restart_splits_relay_clients :
    ∃ s, run (start (nodeFlags .letsencrypt 443 [0x63]) (fun _ => none) 0)
        (renewalEpoch 0 ++ renewalRestart ++ renewalEpoch 1) = some s ∧
      s.conns = [⟨0, some 0, true⟩, ⟨1, some 1, true⟩] :=
  run_satisfies (by decide)

/-! ## What earlier epochs leave running -/

theorem past_kept {s s' : Proc} {acts : List Act} (hs : Reachable s) {e : Nat} (he : e < s.epoch)
    (hRun : run s acts = some s') :
    s'.ep e = s.ep e ∧ s.notified <+: s'.notified ∧
      ∀ p, s.published = some p → s'.published = some p := by
  refine (Reachable.run_preserves (P := fun t => e < t.epoch ∧ t.ep e = s.ep e ∧
      s.notified <+: t.notified ∧ ∀ p, s.published = some p → t.published = some p)
    (fun t a t' ht ⟨hLt, hEp, hNotified, hPublished⟩ h => ?_) acts hs
    ⟨he, rfl, List.prefix_refl _, fun _ => id⟩ hRun).2
  obtain ⟨hEpoch, hNotified', hPublished'⟩ := step_mono h
  exact ⟨lt_of_lt_of_le hLt hEpoch, ((Serial.of_reachable ht).past_frozen h hLt).trans hEp,
    hNotified.trans hNotified', fun p hp => hPublished' p (hPublished p hp)⟩

set_option maxRecDepth 20000 in
theorem restart_keeps_epoch_tasks :
    ∃ s, run (start (nodeFlags .letsencrypt 443 [0x63]) (fun _ => none) 0)
        (renewalEpoch 0 ++ renewalRestart ++ [.setup (nodeEnv renewalCert)]) = some s ∧
      s.epoch = 1 ∧ s.main = .notify ∧ (s.ep 1).cronjob = true ∧ (s.ep 1).cert.cache = true ∧
      ∀ acts s', run s acts = some s' →
        0 ∈ s'.notified ∧ (s'.ep 0).cronjob = true ∧ (s'.ep 0).cert.cache = true := by
  refine (run_satisfies (P := fun s => s.epoch = 1 ∧ s.main = .notify ∧ (s.ep 1).cronjob = true ∧
      (s.ep 1).cert.cache = true ∧ 0 ∈ s.notified ∧ (s.ep 0).cronjob = true ∧
      (s.ep 0).cert.cache = true) ?_).imp
    fun s ⟨hRun, hEpoch, hMain, hCronjob₁, hCache₁, hNotified, hCronjob, hCache⟩ =>
      ⟨hRun, hEpoch, hMain, hCronjob₁, hCache₁, fun acts s' hRun' => by
        obtain ⟨hEp, hPrefix, -⟩ := past_kept (e := 0) (.of_run hRun) (by omega) hRun'
        exact ⟨hPrefix.subset hNotified, hEp ▸ hCronjob, hEp ▸ hCache⟩⟩
  decide

set_option maxRecDepth 20000 in
theorem restart_publishes_first_listener :
    ∃ s, run (start (nodeFlags .letsencrypt 443 [0x63]) (fun _ => none) 0)
        (renewalEpoch 0 ++ renewalRestart ++ renewalEpoch 1) = some s ∧
      (s.ep 1).rln = ⟨1, 0⟩ ∧
      ∀ acts s', run s acts = some s' → s'.published = some 0 ∧ (s'.ep 0).rln = ⟨1, 0⟩ := by
  refine (run_satisfies (P := fun s => s.epoch = 1 ∧ (s.ep 1).rln = ⟨1, 0⟩ ∧ s.published = some 0 ∧
      (s.ep 0).rln = ⟨1, 0⟩) ?_).imp
    fun s ⟨hRun, hEpoch, hCounted, hPublished, hFirst⟩ =>
      ⟨hRun, hCounted, fun acts s' hRun' => by
        obtain ⟨hEp, -, hKept⟩ := past_kept (e := 0) (.of_run hRun) (by omega) hRun'
        exact ⟨hKept 0 hPublished, hEp ▸ hFirst⟩⟩
  decide

end MirageNavi.Derper
