import SwarmDb.Pbft.CheckpointRestart
import SwarmDb.Pbft.ReplicaStorage

/-!
# The construction of a replica

What `newPbft` makes of a storage that holds the two containers of `pbft`: a
replica with these containers (`newPbft_over`), whatever else the storage holds.
-/

namespace SwarmDb

open Lib Program

variable {node : Node}

variable {E : Effect → Prop}

theorem newCheckpointManager_within : Within (Process.Frame checkpointNames E) newCheckpointManager :=
  .bind (.persistent (by decide)) fun _ => .bind (.persistent (by decide)) fun _ =>
    .bind (.bind (.initializeContainer (by decide)) fun _ => .pure _) fun _ =>
    .bind (.bind (.initializeContainer (by decide)) fun _ => .pure _) fun _ => .pure _

/-- The values of `pbft` before the checkpoint manager is built. -/
structure FirstValues where
  view : UInt64
  nextIssuedSequenceNumber : UInt64
  viewIsValid : Bool
  lastViewSent : UInt64

/-- The first members of `pbft`. -/
def newValues : Program Fault Process FirstValues := do
  let view ← persistent .uint64 1 viewKey []
  let nextIssuedSequenceNumber ← persistent .uint64 1 nextIssuedSequenceNumberKey []
  let viewIsValid ← persistent .bool true viewIsValidKey []
  let lastViewSent ← persistent .uint64 0 lastViewSentKey []
  pure ⟨view, nextIssuedSequenceNumber, viewIsValid, lastViewSent⟩

/-- The members of `pbft` after the checkpoint manager. -/
def newContainers (node : Node) (v : FirstValues) (manager : CheckpointManager) :
    Program Fault Process (CheckpointManager × Pbft) := do
  if node.peers.current = [] then raise "No peers found!"
  else do
    let acceptedPreprepares ← initKvContainer .operationKey .logKey acceptedPrepreparesKey
    let validViewchangeMessagesForView ←
      initKvContainer2 (.envelope node.wire) .string .uint64 validViewchangeMessagesForViewKey
    emit (.saveServiceStateAt ((v.nextIssuedSequenceNumber / checkpointInterval + 1) * checkpointInterval))
    pure (manager, {
      view := v.view
      nextIssuedSequenceNumber := v.nextIssuedSequenceNumber
      viewIsValid := v.viewIsValid
      lastViewSent := v.lastViewSent
      acceptedPreprepares, validViewchangeMessagesForView
      lastExecutedSequenceNumber := 0
      recentRequests := []
      savedNewview := default
      pinnedPrimary := none
      operations := ∅
      sessionsWaitingOnForwardedRequests := ∅ })

theorem newPbft_eq (node : Node) : newPbft node = (do
    let v ← newValues
    let manager ← newCheckpointManager
    newContainers node v manager) := by
  simp only [newPbft, newValues, newContainers, bind_assoc, pure_bind]

/-- The names of the single values. -/
def valueNames : List Bytes := [viewKey, nextIssuedSequenceNumberKey, viewIsValidKey, lastViewSentKey]

theorem newValues_within : Within (Process.Frame valueNames E) newValues :=
  .bind (.persistent (by decide)) fun _ => .bind (.persistent (by decide)) fun _ =>
    .bind (.persistent (by decide)) fun _ => .bind (.persistent (by decide)) fun _ => .pure _

/-- The members of a new `pbft` that it does not load. -/
structure Pbft.New (v : FirstValues) (b : Pbft) : Prop where
  view : b.view = v.view
  nextIssuedSequenceNumber : b.nextIssuedSequenceNumber = v.nextIssuedSequenceNumber
  viewIsValid : b.viewIsValid = v.viewIsValid
  lastViewSent : b.lastViewSent = v.lastViewSent
  lastExecutedSequenceNumber : b.lastExecutedSequenceNumber = 0
  savedNewview : b.savedNewview = default
  pinnedPrimary : b.pinnedPrimary = none
  operations : b.operations = ∅

section

variable {p : Process} {A : Map LogKey OperationKey} {V : Map UInt64 (Map Uuid BznEnvelope)}

variable {m : CheckpointManager} {b : Pbft} {v : FirstValues}

section

variable (hA : Holds p .operationKey acceptedPrepreparesKey acceptedSubkeys fun lk => A[lk]?)
  (hkey : ∀ (lk : LogKey) (key : OperationKey), A[lk]? = some key → lk = ⟨key.view, key.sequence⟩)
  (hV : Holds p (.envelope node.wire) validViewchangeMessagesForViewKey viewchangeSubkeys fun x =>
    Map.lookup2 V x.2 x.1)
  (hne : Map.NoEmpty V)
include hA hkey hV hne

/-- The containers are loaded as they are stored, and nothing is written. -/
theorem newContainers_ok {manager : CheckpointManager} (h : (newContainers node v manager).result p = .ok (m, b)) :
    m = manager ∧ b.New v ∧ b.acceptedPreprepares = A ∧ b.validViewchangeMessagesForView = V ∧
      PbftContainers node ((newContainers node v manager).final p) b ∧
      p.Frame [] (fun e => ∃ n, e = .saveServiceStateAt n) ((newContainers node v manager).final p) := by
  unfold newContainers at h ⊢
  split at h
  · cases h
  · rename_i hpeers
    rw [if_neg hpeers]
    obtain ⟨A', h₁, h⟩ := result_bind_eq_ok h
    obtain ⟨V', h₂, h⟩ := result_bind_eq_ok h
    obtain ⟨u, h₃, h⟩ := result_bind_eq_ok h
    rw [final_bind_ok h₁, final_bind_ok h₂, final_bind_ok h₃, final_pure]
    cases h
    obtain ⟨rfl, -, hf₁⟩ := (hA.initKvContainer_ok Conversion.logKey_faithful Conversion.operationKey_faithful).1 _ h₁
    rw [hf₁] at h₂ h₃ ⊢
    have hV₁ := hV.of_stored_eq (q := { p with
      initializedContainers := acceptedPrepreparesKey :: p.initializedContainers }) rfl
    obtain ⟨rfl, hf₂⟩ := (hV₁.initKvContainer2_ok hne string_faithful
      (Conversion.faithful_of_total Conversion.uint64_fromString) (envelope_faithful node.wire)).1 _ h₂
    rw [hf₂] at h₃ ⊢
    obtain ⟨l, hl⟩ := act_ok h₃
    rw [emit, hl]
    refine ⟨rfl, ⟨rfl, rfl, rfl, rfl, rfl, rfl, rfl, rfl⟩, rfl, rfl, ⟨⟨hA.of_stored_eq rfl, by simp⟩,
      ⟨hV.of_stored_eq rfl, by simp⟩, hkey, hne⟩, fun _ _ => rfl, ?_, _, rfl, by simp⟩
    exact List.subset_cons_of_subset _ (List.subset_cons_self _ _)

/-- A replica over the storage of another one: it has its containers. -/
theorem newPbft_over (h : (newPbft node).result p = .ok (m, b)) :
    ∃ v, newValues.result p = .ok v ∧ newCheckpointManager.result (newValues.final p) = .ok m ∧ b.New v ∧
      b.acceptedPreprepares = A ∧ b.validViewchangeMessagesForView = V ∧
      PbftContainers node ((newPbft node).final p) b ∧
      p.Frame (valueNames ++ checkpointNames) (fun e => ∃ n, e = .saveServiceStateAt n) ((newPbft node).final p) ∧
      (newCheckpointManager.final (newValues.final p)).Frame [] (fun e => ∃ n, e = .saveServiceStateAt n)
        ((newPbft node).final p) := by
  rw [newPbft_eq] at h ⊢
  obtain ⟨v, h₁, h⟩ := result_bind_eq_ok h
  obtain ⟨manager, h₂, h⟩ := result_bind_eq_ok h
  rw [final_bind_ok h₁, final_bind_ok h₂]
  have hf : p.Frame (valueNames ++ checkpointNames) (fun e => ∃ n, e = .saveServiceStateAt n)
      (newCheckpointManager.final (newValues.final p)) :=
    ((newValues_within p).mono (List.subset_append_left _ _) fun _ => id).trans
      ((newCheckpointManager_within _).mono (List.subset_append_right _ _) fun _ => id)
  obtain ⟨rfl, hnew, hacc, hvcs, hcont, hlast⟩ :=
    newContainers_ok (hA.frame hf (by decide)) hkey (hV.frame hf (by decide)) hne h
  exact ⟨v, h₁, h₂, hnew, hacc, hvcs, hcont, hf.trans (hlast.mono (List.nil_subset _) fun _ => id), hlast⟩

end

end

/-- The replica of a node of a sample swarm, as it starts over an empty storage. -/
def sampleReplica (node : Node) : Replica :=
  ⟨⟨(newPbft node).final (.start default), .initial⟩,
    startPbft node ⟨1, 1, 0, ∅, [], true, 0, ∅, default, none, ∅, ∅⟩⟩

end SwarmDb
