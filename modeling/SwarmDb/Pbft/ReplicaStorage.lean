import SwarmDb.Pbft.Steps

/-!
# The replica and its storage

`PbftContainers`: the storage holds the two containers of `pbft` as they are in
memory, and every accepted pre-prepare is filed under its own view and sequence.
`Replica.Consistent` says the same of all that the replica and its checkpoint
manager hold. Every step keeps both (`Step.containers`, `Step.consistent`).
-/

namespace SwarmDb

open Lib Program

/-- The names under which `pbft` itself stores. -/
def pbftNames : List Bytes :=
  [viewKey, nextIssuedSequenceNumberKey, viewIsValidKey, lastViewSentKey, acceptedPrepreparesKey,
    validViewchangeMessagesForViewKey]

/-- The sub-keys under which an accepted pre-prepare is written. -/
def acceptedSubkeys (key : LogKey) : List Bytes := [Conversion.logKey.toString key]

/-- The sub-keys under which a VIEWCHANGE is written. -/
def viewchangeSubkeys (x : Uuid × UInt64) : List Bytes := [x.1, Conversion.uint64.toString x.2]

theorem acceptedSubkeys_injective : Function.Injective acceptedSubkeys :=
  fun _ _ h => Conversion.logKey_injective (List.singleton_inj.mp h)

theorem uint64_injective : Function.Injective Conversion.uint64.toString := by
  intro a b h
  have ha := Conversion.uint64_fromString a
  rw [h, Conversion.uint64_fromString] at ha
  cases ha
  rfl

theorem viewchangeSubkeys_injective : Function.Injective viewchangeSubkeys := by
  rintro ⟨u, v⟩ ⟨u', v'⟩ h
  simp only [viewchangeSubkeys, List.cons.injEq, and_true] at h
  rw [h.1, uint64_injective h.2]

theorem envelope_faithful (wire : Wire) : (Conversion.envelope wire).Faithful :=
  Conversion.faithful_of_total fun env => Conversion.envelope_fromString wire env

/-- The storage of `p` holds the containers of `b`. -/
structure PbftContainers (node : Node) (p : Process) (b : Pbft) : Prop where
  accepted : Container p .operationKey acceptedPrepreparesKey acceptedSubkeys fun key => b.acceptedPreprepares[key]?
  viewchanges : Container p (.envelope node.wire) validViewchangeMessagesForViewKey viewchangeSubkeys
    fun x => Map.lookup2 b.validViewchangeMessagesForView x.2 x.1
  acceptedKey : ∀ (lk : LogKey) (key : OperationKey), b.acceptedPreprepares[lk]? = some key →
    lk = ⟨key.view, key.sequence⟩
  noEmpty : Map.NoEmpty b.validViewchangeMessagesForView

/-- The storage of `p` holds the single values of `b`. -/
structure ValuesStored (p : Process) (b : Pbft) : Prop where
  view : Stored p .uint64 viewKey b.view
  nextIssuedSequenceNumber : Stored p .uint64 nextIssuedSequenceNumberKey b.nextIssuedSequenceNumber
  viewIsValid : Stored p .bool viewIsValidKey b.viewIsValid
  lastViewSent : Stored p .uint64 lastViewSentKey b.lastViewSent

/-- The replica and its storage are in step. -/
structure Replica.Consistent (node : Node) (s : Replica) : Prop where
  manager : Mirrors s.toProcess s.manager
  values : ValuesStored s.toProcess s.pbft
  containers : PbftContainers node s.toProcess s.pbft

theorem Process.Frame.of_emits {p q : Process} {e : Effect} {names : List Bytes} {E : Effect → Prop}
    (h : p.Emits q e) (he : E e) : p.Frame names E q :=
  ⟨fun key _ => by rw [h.stored], h.initializedContainers ▸ List.Subset.refl _, [e], h.log, by simpa using he⟩

section

variable {node : Node} {p q : Process} {b : Pbft}

namespace PbftContainers

section

variable (h : PbftContainers node p b)
include h

theorem frame {names : List Bytes} {E : Effect → Prop} (hf : p.Frame names E q)
    (hnames : acceptedPrepreparesKey ∉ names ∧ validViewchangeMessagesForViewKey ∉ names) : PbftContainers node q b :=
  ⟨h.accepted.frame hf hnames.1, h.viewchanges.frame hf hnames.2, h.acceptedKey, h.noEmpty⟩

theorem emits {e : Effect} (he : p.Emits q e) : PbftContainers node q b :=
  have hf : p.Frame [] (fun _ => True) q := .of_emits he trivial
  h.frame hf ⟨List.not_mem_nil, List.not_mem_nil⟩

/-- A write under another name. -/
theorem writes {name : Bytes} {ks : List Bytes} {o : Option Bytes} (hw : p.Writes q (persistentKey name ks) o)
    (hname : acceptedPrepreparesKey ≠ name ∧ validViewchangeMessagesForViewKey ≠ name) : PbftContainers node q b := by
  have hf : p.Frame [name] (fun _ => True) q := .of_writes (List.mem_singleton_self _) hw
  exact h.frame hf (by simpa using hname)

/-- The other members may change. -/
theorem same {b' : Pbft} (haccepted : b'.acceptedPreprepares = b.acceptedPreprepares)
    (hvcs : b'.validViewchangeMessagesForView = b.validViewchangeMessagesForView) : PbftContainers node p b' := by
  obtain ⟨h₁, h₂, h₃, h₄⟩ := h
  exact ⟨haccepted ▸ h₁, hvcs ▸ h₂, haccepted ▸ h₃, hvcs ▸ h₄⟩

theorem writes_accepted (key : OperationKey)
    (hw : p.Writes q (persistentKey acceptedPrepreparesKey (acceptedSubkeys ⟨key.view, key.sequence⟩))
      (some (Conversion.operationKey.toString key))) :
    PbftContainers node q
      { b with acceptedPreprepares := b.acceptedPreprepares.insert ⟨key.view, key.sequence⟩ key } := by
  have hf : p.Frame [acceptedPrepreparesKey] (fun _ => True) q := .of_writes (List.mem_singleton_self _) hw
  refine ⟨?_, h.viewchanges.frame hf (by decide), ?_, h.noEmpty⟩
  · convert h.accepted.writes acceptedSubkeys_injective (v := some key) hw using 2 with lk
    rw [Map.lookup_insert, Function.update_apply]
    simp only [eq_comm]
  · intro lk key' hk
    rw [Map.lookup_insert] at hk
    split at hk
    · cases hk
      exact Eq.symm ‹_›
    · exact h.acceptedKey lk key' hk

theorem writes_viewchange {u : Uuid} {v : UInt64} {env : BznEnvelope}
    (hw : p.Writes q (persistentKey validViewchangeMessagesForViewKey (viewchangeSubkeys (u, v)))
      (some ((Conversion.envelope node.wire).toString env))) :
    PbftContainers node q
      { b with validViewchangeMessagesForView := Map.insert2 b.validViewchangeMessagesForView v u env } := by
  have hf : p.Frame [validViewchangeMessagesForViewKey] (fun _ => True) q :=
    .of_writes (List.mem_singleton_self _) hw
  refine ⟨h.accepted.frame hf (by decide), ?_, h.acceptedKey, Map.noEmpty_insert2 h.noEmpty v u env⟩
  convert h.viewchanges.writes viewchangeSubkeys_injective (v := some env) hw using 2 with x
  rw [Map.lookup2_insert2, Function.update_apply]
  simp only [Prod.ext_iff, eq_comm, and_comm]

end

end PbftContainers

namespace ValuesStored

section

variable (h : ValuesStored p b)
include h

theorem frame {names : List Bytes} {E : Effect → Prop} (hf : p.Frame names E q)
    (hnames : ∀ name ∈ [viewKey, nextIssuedSequenceNumberKey, viewIsValidKey, lastViewSentKey], name ∉ names) :
    ValuesStored q b :=
  ⟨h.view.frame hf (hnames _ (by decide)), h.nextIssuedSequenceNumber.frame hf (hnames _ (by decide)),
    h.viewIsValid.frame hf (hnames _ (by decide)), h.lastViewSent.frame hf (hnames _ (by decide))⟩

theorem emits {e : Effect} (he : p.Emits q e) : ValuesStored q b :=
  have hf : p.Frame [] (fun _ => True) q := .of_emits he trivial
  h.frame hf fun _ _ => List.not_mem_nil

/-- A write to a container. -/
theorem writes {name : Bytes} {ks : List Bytes} {o : Option Bytes} (hw : p.Writes q (persistentKey name ks) o)
    (hname : name ∈ [acceptedPrepreparesKey, validViewchangeMessagesForViewKey]) : ValuesStored q b := by
  have hf : p.Frame [acceptedPrepreparesKey, validViewchangeMessagesForViewKey] (fun _ => True) q :=
    .of_writes hname hw
  exact h.frame hf (by decide)

theorem same {b' : Pbft} (hview : b'.view = b.view) (hnext : b'.nextIssuedSequenceNumber = b.nextIssuedSequenceNumber)
    (hvalid : b'.viewIsValid = b.viewIsValid) (hsent : b'.lastViewSent = b.lastViewSent) : ValuesStored p b' := by
  obtain ⟨h₁, h₂, h₃, h₄⟩ := h
  exact ⟨hview ▸ h₁, hnext ▸ h₂, hvalid ▸ h₃, hsent ▸ h₄⟩

end

variable {v : UInt64}

section

variable (h : ValuesStored p b)
include h

theorem writes_view (hw : p.Writes q (persistentKey viewKey []) (some (Conversion.uint64.toString v))) :
    ValuesStored q { b with view := v } :=
  have hf : p.Frame [viewKey] (fun _ => True) q := .of_writes (List.mem_singleton_self _) hw
  ⟨.writes hw, h.nextIssuedSequenceNumber.frame hf (by decide), h.viewIsValid.frame hf (by decide),
    h.lastViewSent.frame hf (by decide)⟩

theorem writes_nextIssued
    (hw : p.Writes q (persistentKey nextIssuedSequenceNumberKey []) (some (Conversion.uint64.toString v))) :
    ValuesStored q { b with nextIssuedSequenceNumber := v } :=
  have hf : p.Frame [nextIssuedSequenceNumberKey] (fun _ => True) q := .of_writes (List.mem_singleton_self _) hw
  ⟨h.view.frame hf (by decide), .writes hw, h.viewIsValid.frame hf (by decide), h.lastViewSent.frame hf (by decide)⟩

theorem writes_viewIsValid {v : Bool}
    (hw : p.Writes q (persistentKey viewIsValidKey []) (some (Conversion.bool.toString v))) :
    ValuesStored q { b with viewIsValid := v } :=
  have hf : p.Frame [viewIsValidKey] (fun _ => True) q := .of_writes (List.mem_singleton_self _) hw
  ⟨h.view.frame hf (by decide), h.nextIssuedSequenceNumber.frame hf (by decide), .writes hw,
    h.lastViewSent.frame hf (by decide)⟩

theorem writes_lastViewSent (hw : p.Writes q (persistentKey lastViewSentKey []) (some (Conversion.uint64.toString v))) :
    ValuesStored q { b with lastViewSent := v } :=
  have hf : p.Frame [lastViewSentKey] (fun _ => True) q := .of_writes (List.mem_singleton_self _) hw
  ⟨h.view.frame hf (by decide), h.nextIssuedSequenceNumber.frame hf (by decide), h.viewIsValid.frame hf (by decide),
    .writes hw⟩

end

end ValuesStored

variable {m : CheckpointManager}

theorem Mirrors.emits (h : Mirrors p m) {e : Effect} (he : p.Emits q e) : Mirrors q m :=
  have hf : p.Frame [] (fun _ => True) q := .of_emits he trivial
  h.frame hf fun _ _ => List.not_mem_nil

/-- A write of `pbft` leaves the checkpoint manager in step. -/
theorem Mirrors.pbftWrites (h : Mirrors p m) {name : Bytes} {ks : List Bytes} {o : Option Bytes}
    (hw : p.Writes q (persistentKey name ks) o) (hname : name ∈ pbftNames) : Mirrors q m := by
  have hf : p.Frame pbftNames (fun _ => True) q := .of_writes hname hw
  exact h.frame hf (by decide)

end

section

variable {node : Node} {outside : Outside} {ev : Event} {s₀ s s' : Replica}

section

variable (h : Step node outside ev s₀ s s')
include h

/-- Every step keeps the containers in step. -/
theorem Step.containers (hs : PbftContainers node s.toProcess s.pbft) : PbftContainers node s'.toProcess s'.pbft := by
  cases h with
  | memory _ same => exact hs.same same.acceptedPreprepares same.validViewchangeMessagesForView
  | executed | request | recordPreprepare | recordVote | saveNewview | deleteOperations => exact hs.same rfl rfl
  | nextIssued _ _ _ writes | invalidate _ writes | adoptView _ _ _ _ _ _ _ writes =>
    exact (hs.writes writes (by decide)).same rfl rfl
  | emit _ _ _ emits | broadcastPrepare _ _ _ _ _ _ _ emits | broadcastCommit _ _ _ _ _ _ _ _ _ emits
  | apply _ _ _ _ _ _ _ _ emits | broadcastPreprepare _ _ _ _ _ _ emits | sendNewview _ _ _ _ _ emits =>
    exact hs.emits emits
  | call _ _ _ _ _ frame => exact hs.frame frame (by decide)
  | accept msg _ _ _ _ writes => exact hs.writes_accepted msg.operationKey writes
  | advance _ _ _ _ _ _ _ emits => exact (hs.emits emits).same rfl rfl
  | storeViewchange _ _ _ _ _ _ _ _ writes => exact hs.writes_viewchange writes
  | sendViewchange _ _ _ _ _ _ emits _ writes =>
    exact ((hs.emits emits).writes writes (by decide)).same rfl rfl
  | newview _ _ _ _ _ _ writes _ writes' =>
    exact ((hs.writes writes (by decide)).writes writes' (by decide)).same rfl rfl

/-- Every step keeps the single values in step. -/
theorem Step.values (hs : ValuesStored s.toProcess s.pbft) : ValuesStored s'.toProcess s'.pbft := by
  cases h with
  | memory _ same =>
    exact hs.same same.view same.nextIssuedSequenceNumber same.viewIsValid same.lastViewSent
  | executed | request | recordPreprepare | recordVote | saveNewview | deleteOperations => exact hs.same rfl rfl rfl rfl
  | nextIssued _ _ _ writes => exact hs.writes_nextIssued writes
  | emit _ _ _ emits | broadcastPrepare _ _ _ _ _ _ _ emits | broadcastCommit _ _ _ _ _ _ _ _ _ emits
  | apply _ _ _ _ _ _ _ _ emits | broadcastPreprepare _ _ _ _ _ _ emits | sendNewview _ _ _ _ _ emits =>
    exact hs.emits emits
  | call _ _ _ _ _ frame => exact hs.frame frame (by decide)
  | accept _ _ _ _ _ writes => exact (hs.writes writes (by decide)).same rfl rfl rfl rfl
  | advance _ _ _ _ _ _ _ emits => exact (hs.emits emits).same rfl rfl rfl rfl
  | storeViewchange _ _ _ _ _ _ _ _ writes =>
    exact (hs.writes writes (by decide)).same rfl rfl rfl rfl
  | invalidate _ writes => exact hs.writes_viewIsValid writes
  | sendViewchange _ _ _ _ _ _ emits _ writes => exact (hs.emits emits).writes_lastViewSent writes
  | newview _ _ _ _ _ _ writes _ writes' =>
    exact ((hs.writes_view writes).writes_viewIsValid writes').same rfl rfl rfl rfl
  | adoptView _ _ _ _ _ _ _ writes => exact (hs.writes_view writes).same rfl rfl rfl rfl

/-- Every step keeps the checkpoint manager in step. -/
theorem Step.mirrors (hs : Mirrors s.toProcess s.manager) : Mirrors s'.toProcess s'.manager := by
  cases h with
  | nextIssued _ _ _ writes | accept _ _ _ _ _ writes | storeViewchange _ _ _ _ _ _ _ _ writes
  | invalidate _ writes | adoptView _ _ _ _ _ _ _ writes => exact hs.pbftWrites writes (by decide)
  | call _ _ _ _ after => exact (after hs).2
  | sendViewchange _ _ _ _ _ _ emits _ writes =>
    exact (hs.emits emits).pbftWrites writes (by decide)
  | newview _ _ _ _ _ _ writes _ writes' =>
    exact (hs.pbftWrites writes (by decide)).pbftWrites writes' (by decide)
  | emit _ _ _ emits | broadcastPrepare _ _ _ _ _ _ _ emits | advance _ _ _ _ _ _ _ emits
  | broadcastCommit _ _ _ _ _ _ _ _ _ emits | apply _ _ _ _ _ _ _ _ emits
  | broadcastPreprepare _ _ _ _ _ _ emits | sendNewview _ _ _ _ _ emits => exact hs.emits emits
  | memory | executed | request | recordPreprepare | recordVote | saveNewview | deleteOperations => exact hs

/-- Every step keeps the replica and its storage in step. -/
theorem Step.consistent (hs : s.Consistent node) : s'.Consistent node :=
  ⟨h.mirrors hs.manager, h.values hs.values, h.containers hs.containers⟩

end

end

/-- The steps of the handling of an event. -/
def moves (node : Node) (outside : Outside) (ev : Event) (s₀ : Replica) : Moves Replica where
  step := Step node outside ev s₀
  crash := Crash node outside ev s₀
  inv s := PbftContainers node s.toProcess s.pbft
  crash_refl s := .quiet (.refl s.toProcess)
  inv_step _ _ hs h := h.containers hs

end SwarmDb
