import Mathlib.Data.List.Basic

/-! # The exit-node menu

`updateCurrentExitNode` clears the check mark of every entry of the exit-node list, checks the
entry that `exitNodeIDMap` gives for the node it is told about, and titles the menu after the
peer that the preferences name as exit node, which need not be that node. Asked for an entry past
the end of the list, `ActionList.At` panics.

`setUseExitNode` makes a node the exit node: it refuses while this node is itself an exit node,
reads the preferences, has the daemon check them with the new exit node, and only then edits them
with a mask that sets the exit node alone. Each failure sends one notification, titled
设置出口节点, and leaves the preferences as they were; a successful edit sends none.
-/

namespace MirageNavi.Client

set_option autoImplicit false

/-- The part of `exitField` that `updateCurrentExitNode` reads and writes: whether each entry of
`exitNodeList` is checked, `exitNodeIDMap` (the index of a node's entry, by its stable ID), and
the text of `exitNodeMenu`. -/
structure ExitMenu where
  checked : List Bool
  indexOf : String → Option Nat
  title : String

/-- The check marks after `SetChecked(false)` on every entry and `SetChecked(true)` on the entry
`index`, if any; `none` when that entry is past the end of the list. -/
def checkOnly (checked : List Bool) : Option Nat → Option (List Bool)
  | some index => if index < checked.length then some ((checked.map fun _ => false).set index true) else none
  | none => some (checked.map fun _ => false)

/-- The text of `exitNodeMenu` for the display name of the exit node's peer, if the network map
has it. -/
def exitTitle : Option String → String
  | some name => "出口节点(" ++ name ++ ")"
  | none => "出口节点"

/-- `updateCurrentExitNode stableID`, where `peerName` is the display name of the peer
`NetMap.PeerWithStableID` finds and `exitNodeID` the preferences' `ExitNodeID`. -/
def updateCurrentExitNode (peerName : String → Option String) (exitNodeID stableID : String)
    (menu : ExitMenu) : Option ExitMenu :=
  (checkOnly menu.checked (menu.indexOf stableID)).map fun checked =>
    { menu with checked, title := exitTitle (peerName exitNodeID) }

theorem checkOnly_getElem? {checked checked' : List Bool} {index : Option Nat}
    (h : checkOnly checked index = some checked') :
    ∀ j, checked'[j]? = checked[j]?.map fun _ => decide (index = some j) := by
  intro j
  cases index with
  | none =>
    simp only [checkOnly, Option.some.injEq] at h
    subst h
    rw [List.getElem?_map]
    simp
  | some index =>
    simp only [checkOnly] at h
    split_ifs at h with hLt
    cases h
    rw [List.getElem?_set, List.getElem?_map]
    by_cases hEq : index = j
    · subst hEq
      simp [List.getElem?_eq_getElem hLt, hLt]
    · simp [hEq]

theorem updateCurrentExitNode_spec (peerName : String → Option String) (exitNodeID stableID : String)
    (menu : ExitMenu) :
    (updateCurrentExitNode peerName exitNodeID stableID menu = none ↔
      ∃ index, menu.indexOf stableID = some index ∧ menu.checked.length ≤ index) ∧
    ∀ menu', updateCurrentExitNode peerName exitNodeID stableID menu = some menu' →
      (∀ j, menu'.checked[j]? = menu.checked[j]?.map fun _ => decide (menu.indexOf stableID = some j)) ∧
      menu'.title = exitTitle (peerName exitNodeID) := by
  refine ⟨?_, fun menu' h => ?_⟩
  · unfold updateCurrentExitNode checkOnly
    split <;> simp_all
  · obtain ⟨checked, hChecked, rfl⟩ := Option.map_eq_some'.1 h
    exact ⟨checkOnly_getElem? hChecked, rfl⟩

/-- The levels `SendNotify` takes. -/
inductive NotifyLevel
  | warn
  | error
  deriving DecidableEq, Repr

/-- A notification `SendNotify` shows. -/
structure Notification where
  title : String
  text : String
  level : NotifyLevel
  deriving DecidableEq, Repr

/-- `ipn.Prefs`: the exit node, and the rest, which `setUseExitNode` carries along. -/
structure Prefs (α : Type) where
  exitNodeID : String
  rest : α
  deriving DecidableEq, Repr

/-- What the daemon answers during `setUseExitNode`: the errors of `GetPrefs` and `EditPrefs`,
and that of `CheckPrefs` on the preferences it is given. -/
structure PrefsAnswers (α : Type) where
  getPrefs : Option String
  checkPrefs : Prefs α → Option String
  editPrefs : Option String

/-- The notification of a failed step of `setUseExitNode`: what failed, then the error. -/
def exitFailure (what err : String) : Notification :=
  ⟨"设置出口节点", what ++ err, .error⟩

/-- `setUseExitNode stableID`, with the daemon's preferences as state: `runExit` is whether
`exitRunExitAction` is checked. `ApplyEdits` of the mask, which sets `ExitNodeID` alone, replaces
the exit node and keeps the rest. The preferences after, and the notification sent, if any. -/
def setUseExitNode {α : Type} (runExit : Bool) (answers : PrefsAnswers α) (stableID : String)
    (prefs : Prefs α) : Prefs α × Option Notification :=
  if runExit then (prefs, some ⟨"设置出口节点", "当前节点用作出口节点，无法使用其他节点作为出口节点", .warn⟩)
  else match answers.getPrefs, answers.checkPrefs { prefs with exitNodeID := stableID }, answers.editPrefs with
    | some err, _, _ => (prefs, some (exitFailure "获取当前配置失败:" err))
    | none, some err, _ => (prefs, some (exitFailure "检查配置失败:" err))
    | none, none, some err => (prefs, some (exitFailure "更新配置失败:" err))
    | none, none, none => ({ prefs with exitNodeID := stableID }, none)

theorem setUseExitNode_spec {α : Type} (runExit : Bool) (answers : PrefsAnswers α) (stableID : String)
    (prefs : Prefs α) :
    ((setUseExitNode runExit answers stableID prefs).1 = prefs ∧
      ∃ n, (setUseExitNode runExit answers stableID prefs).2 = some n ∧ n.title = "设置出口节点") ∨
    (setUseExitNode runExit answers stableID prefs = ({ prefs with exitNodeID := stableID }, none) ∧
      runExit = false ∧ answers.checkPrefs { prefs with exitNodeID := stableID } = none) := by
  unfold setUseExitNode
  split_ifs with hRun
  · exact .inl ⟨rfl, _, rfl, rfl⟩
  split <;> first | exact .inl ⟨rfl, _, rfl, rfl⟩ | exact .inr ⟨rfl, by simpa using hRun, ‹_›⟩

end MirageNavi.Client
