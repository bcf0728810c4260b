import MirageNavi.Derper.Epochs

/-! # The store across epochs

Outside dev mode the first pass of the loop sets `*configPath` and leaves a store there: the one
it found, or the one `writeNewConfig` wrote with fresh keys. Every later pass reads that same
file, since nothing else writes it, so every epoch runs with the same node key and control key.
The first pass, when it writes the store, returns the config it made rather than the one it wrote;
`json.MarshalIndent` replaces every byte sequence of `CtrlURL` or `DERPID` that is not UTF-8 by
U+FFFD, and the later passes read those replaced strings back.
-/

namespace MirageNavi.Derper

open MirageNavi.Tls MirageNavi.Store Proc

set_option autoImplicit false

def Stored (s : Proc) : Prop :=
  s.flags.dev = false → s.Begun 0 →
    s.flags.configPath ≠ [] ∧ ∃ b c, s.files s.flags.configPath = some b ∧ unmarshal b = some c ∧
      (c = (s.ep 0).cfg ∨ c = (s.ep 0).cfg.coerce) ∧ ∀ e, 0 < e → s.Begun e → (s.ep e).cfg = c

namespace Stored

variable {s s' : Proc}

theorem init (fl : Flags) (files : Files) (now : Nat) : Stored (start fl files now) :=
  fun _ h => by simp [Proc.Begun, start] at h

theorem first {env : SetupEnv} {b : Built} (hEpoch : s.epoch = 0)
    (hb : setup s.flags s.files env = .ok b) : Stored (s.begin env) := by
  intro hDev _
  obtain ⟨hLoad, hDev', -⟩ := setup_spec hb
  simp only [Proc.begin, hb] at hDev ⊢
  obtain ⟨hPath, -, bytes, hFile, hDecode⟩ := loadConfig_store hLoad (hDev'.symm.trans hDev)
  refine ⟨hPath, bytes, ?_⟩
  rcases hDecode with hDecode | ⟨-, hDecode⟩
  · refine ⟨_, hFile, hDecode, .inl (by simp [hEpoch, Epoch.begin]), fun e he hBegun => ?_⟩
    simp [Proc.Begun, hEpoch] at hBegun
    omega
  · refine ⟨_, hFile, hDecode, .inr (by simp [hEpoch, Epoch.begin]), fun e he hBegun => ?_⟩
    simp [Proc.Begun, hEpoch] at hBegun
    omega

theorem later (hS : Stored s) {env : SetupEnv} {b : Built} (hTop : s.main = .top)
    (hEpoch : 0 < s.epoch) (hb : setup s.flags s.files env = .ok b) : Stored (s.begin env) := by
  intro hDev _
  obtain ⟨hLoad, hDev', -⟩ := setup_spec hb
  simp only [Proc.begin, hb] at hDev ⊢
  obtain ⟨hPath, bytes, c, hFile, hDecode, hFirst, hLater⟩ :=
    hS (hDev'.symm.trans hDev) (.inl hEpoch)
  rw [loadConfig_existing (hDev'.symm.trans hDev) hPath hFile] at hLoad
  split_ifs at hLoad
  rw [hDecode] at hLoad
  simp only [Option.map_some', Option.some.injEq, Prod.mk.injEq] at hLoad
  obtain ⟨rfl, hPath', hFiles⟩ := hLoad
  simp only [setEp_ep, hEpoch.ne, if_false]
  refine ⟨hPath' ▸ hPath, bytes, b.cfg, by rw [← hPath', ← hFiles]; exact hFile, hDecode, hFirst,
    fun e he hBegun => ?_⟩
  by_cases hEq : e = s.epoch
  · simp [hEq, Epoch.begin]
  · simp only [hEq, if_false]
    refine hLater e he ?_
    simp [Proc.Begun, hTop] at hBegun ⊢
    omega

theorem step (hS : Stored s) {a : Act} (h : Derper.step s a = some s') : Stored s' := by
  cases ha : a.isMain
  · obtain ⟨hEpoch, hMain, -, -, hFlags, hFiles⟩ := main_frame h ha
    have hCfg : ∀ e, (s'.ep e).cfg = (s.ep e).cfg := fun e =>
      congrArg (·.2.1) (built_frame h (by rintro env rfl; cases ha) e)
    intro hDev hBegun
    simp only [Proc.Begun, hEpoch, hMain, hFlags, hFiles, hCfg] at hDev hBegun ⊢
    exact hS hDev hBegun
  cases a with
  | setup env =>
    obtain ⟨hTop, rfl⟩ := step_setup h
    cases hb : setup s.flags s.files env with
    | error x =>
      intro hDev hBegun
      simp only [Proc.begin, hb] at hDev hBegun ⊢
      exact hS hDev hBegun
    | ok b =>
      rcases Nat.eq_zero_or_pos s.epoch with hEpoch | hEpoch
      · exact first hEpoch hb
      · exact hS.later hTop hEpoch hb
  | notify =>
    obtain ⟨hNotify, rfl⟩ := step_notify h
    intro hDev hBegun
    have hBegun' : ∀ e, s.notify.Begun e ↔ s.Begun e := by simp [Proc.Begun, Proc.notify, hNotify]
    have hCfg : ∀ e, (s.notify.ep e).cfg = (s.ep e).cfg := fun e => by
      by_cases hEq : e = s.epoch <;> simp [Proc.notify, hEq, Epoch.notify]
    simp only [hBegun', hCfg] at hBegun ⊢
    exact hS hDev hBegun
  | wait =>
    obtain ⟨hWait, -, ⟨-, rfl⟩ | ⟨-, rfl⟩⟩ := step_wait h
    · have hBegun' : ∀ e, Proc.Begun { s with epoch := s.epoch + 1, main := .top } e ↔ s.Begun e :=
        fun e => by simp [Proc.Begun, hWait]; omega
      intro hDev hBegun
      simp only [hBegun'] at hBegun ⊢
      exact hS hDev hBegun
    · exact hS
  | _ => cases ha

theorem of_reachable (hs : Reachable s) : Stored s :=
  Reachable.induction (fun _ _ _ _ hS h => hS.step h) init hs

end Stored

theorem epochs_share_store (s : Proc) (hs : Reachable s) (hDev : s.flags.dev = false) (e : Nat)
    (he : s.Begun e) :
    ((s.ep e).cfg = (s.ep 0).cfg ∨ (s.ep e).cfg = (s.ep 0).cfg.coerce) ∧
      (s.ep e).cfg.privateKey = (s.ep 0).cfg.privateKey ∧
      (s.ep e).cfg.naviKey = (s.ep 0).cfg.naviKey ∧
      (validUTF8 (s.ep 0).cfg.ctrlURL → validUTF8 (s.ep 0).cfg.derpID →
        (s.ep e).cfg = (s.ep 0).cfg) := by
  have hSame : (s.ep e).cfg = (s.ep 0).cfg ∨ (s.ep e).cfg = (s.ep 0).cfg.coerce := by
    rcases Nat.eq_zero_or_pos e with rfl | hPos
    · exact .inl rfl
    · have hBegun₀ : s.Begun 0 := by simp only [Proc.Begun] at he ⊢; omega
      obtain ⟨-, -, c, -, -, hFirst, hLater⟩ := Stored.of_reachable hs hDev hBegun₀
      rw [hLater e hPos he]
      exact hFirst
  refine ⟨hSame, ?_, ?_, fun hURL hID => ?_⟩ <;> rcases hSame with h | h <;> rw [h]
  · rfl
  · rfl
  · simp [Config.coerce, coerceUTF8_eq_self hURL, coerceUTF8_eq_self hID]

set_option maxRecDepth 20000 in
theorem epochs_share_store_after_restart :
    ∃ s, run (start (nodeFlags .letsencrypt 443 [0x63]) (fun _ => none) 0)
        (renewalEpoch 0 ++ renewalRestart ++ renewalEpoch 1) = some s ∧
      (s.ep 1).cfg = (s.ep 0).cfg := by
  refine (run_satisfies (P := fun s => s.flags.dev = false ∧ s.Begun 1 ∧
      validUTF8 (s.ep 0).cfg.ctrlURL ∧ validUTF8 (s.ep 0).cfg.derpID) ?_).imp
    fun s ⟨hRun, hDev, hBegun, hURL, hID⟩ =>
      ⟨hRun, (epochs_share_store s (.of_run hRun) hDev 1 hBegun).2.2.2 hURL hID⟩
  decide

set_option maxRecDepth 20000 in
theorem invalid_ctrl_url_read_back_replaced :
    ∃ s, run (start (nodeFlags .letsencrypt 443 [0xFF]) (fun _ => none) 0)
        (renewalEpoch 0 ++ renewalRestart ++ [.setup (nodeEnv renewalCert)]) = some s ∧
      (s.ep 0).cfg.ctrlURL = [0xFF] ∧ (s.ep 1).cfg.ctrlURL = [0xEF, 0xBF, 0xBD] ∧
      (s.ep 1).cfg.privateKey = (s.ep 0).cfg.privateKey :=
  run_satisfies (by decide)

end MirageNavi.Derper
