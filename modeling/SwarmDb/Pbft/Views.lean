import SwarmDb.Pbft.Assignment

/-!
# The view of a replica

A replica enters another view by a NEWVIEW that it has checked, or by the one that comes with a state, which is not
checked (`steps_view`). But for the latter, the stored view never goes back, and the primary is the peer whose turn it
is (`view_kept`).
-/

namespace SwarmDb

open Lib Program

/-- The view that a process finds in the storage of a machine when it starts. -/
def Machine.storedView (m : Machine) : UInt64 :=
  match m.storage.read stateUuid (persistentKey viewKey []) with
  | some text => ((Conversion.uint64.fromString text).toOption).getD 1
  | none => 1

/-- A state that is taken over brings no other view, and no primary but the one
of the view. -/
def KeepsView (node : Node) (m : Machine) (a : Happening) : Prop :=
  ∀ s outside ev nv nvEnv, m.replica? = some s → a = .event outside ev → StateNewview node ev s nv nvEnv →
    nv.view = s.pbft.view ∧ node.peerByUuid nvEnv.sender = node.primaryOf nv.view

/-- How an event changes the view and the primary: by a NEWVIEW that was checked,
or by that of a state. -/
inductive ViewChanges (node : Node) (outside : Outside) (ev : Event) (s₀ s : Replica) : Prop
  | same (view : s.pbft.view = s₀.pbft.view) (primary : s.pbft.pinnedPrimary = s₀.pbft.pinnedPrimary)
  | newview (nv : PbftMsg) (nvEnv : BznEnvelope) (accepted : NewviewAccepted node outside ev s₀ nv nvEnv)
      (view : s.pbft.view = nv.view) (primary : s.pbft.pinnedPrimary = node.peerByUuid nvEnv.sender)
  | state (nv : PbftMsg) (nvEnv : BznEnvelope) (received : StateNewview node ev s₀ nv nvEnv)
      (view : s.pbft.view = nv.view) (primary : s.pbft.pinnedPrimary = node.peerByUuid nvEnv.sender)

section

variable {node : Node} {outside : Outside} {ev : Event} {s₀ s s' : Replica} {p : Process} {b : Pbft}

theorem ViewChanges.of_eq (h : ViewChanges node outside ev s₀ s) (hview : s'.pbft.view = s.pbft.view)
    (hprimary : s'.pbft.pinnedPrimary = s.pbft.pinnedPrimary) : ViewChanges node outside ev s₀ s' := by
  cases h with
  | same view primary => exact .same (hview.trans view) (hprimary.trans primary)
  | newview nv nvEnv accepted view primary =>
    exact .newview nv nvEnv accepted (hview.trans view) (hprimary.trans primary)
  | state nv nvEnv received view primary => exact .state nv nvEnv received (hview.trans view) (hprimary.trans primary)

theorem steps_view (h : Relation.ReflTransGen (Step node outside ev s₀) s₀ s) : ViewChanges node outside ev s₀ s := by
  induction h with
  | refl => exact .same rfl rfl
  | tail _ hstep ih =>
    cases hstep with
    | memory _ same => exact ih.of_eq same.view same.pinnedPrimary
    | newview nv nvEnv accepted => exact .newview nv nvEnv accepted rfl rfl
    | adoptView nv nvEnv received => exact .state nv nvEnv received rfl rfl
    | _ => exact ih.of_eq rfl rfl

/-! ## The view in storage -/

variable {m : Machine} {past : List Effect}

theorem storedView_of_loads {v : UInt64} (hp : p.storage = m.storage) (h : Loads p .uint64 viewKey 1 v) :
    m.storedView = v := by
  rw [Machine.storedView, ← hp]
  rcases h with h | ⟨h, rfl⟩
  · rw [Stored, Process.stored] at h
    rw [h]
    dsimp only
    rw [Conversion.uint64_fromString]
    rfl
  · rw [Process.stored] at h
    rw [h]

theorem storedView_up (h : s.Kept node) : (Machine.up past s).storedView = s.pbft.view :=
  storedView_of_loads (p := s.toProcess) rfl h.durable.values.view

theorem storedView_down (h : Durable node p b) : (Machine.down past p).storedView = b.view :=
  storedView_of_loads (p := p) rfl h.values.view

/-- A new start leaves the view as it is. -/
theorem storedView_restart (h : Durable node p b) (hp : p.storage = m.storage) (lifetime : Option Nat) :
    (m.happens node (.restart lifetime)).storedView = m.storedView := by
  rw [storedView_of_loads hp h.values.view, Machine.happens, ← hp]
  split
  · rename_i s q hr
    have hrestarted := replicaOver_ok h hr
    exact (storedView_up hrestarted.kept).trans hrestarted.view
  · rename_i e q hr
    exact storedView_down (replicaOver_error h hr).1

/-! ## Events -/

/-- In a list of peers with different names, a peer is found by its name. -/
theorem Node.peerByUuid_eq (hdistinct : (node.peers.current.map (·.uuid)).Nodup) {peer : PeerAddress}
    (h : peer ∈ node.peers.current) : node.peerByUuid peer.uuid = some peer := by
  obtain ⟨found, hfound⟩ := Node.peerByUuid_isSome h
  have hmem : found ∈ node.peers.current := List.mem_of_find?_eq_some hfound
  have huuid : found.uuid = peer.uuid := by simpa using List.find?_some hfound
  rw [hfound, List.inj_on_of_nodup_map hdistinct hmem h huuid]

theorem NewviewAccepted.primary_eq (hdistinct : (node.peers.current.map (·.uuid)).Nodup) {nv : PbftMsg}
    {nvEnv : BznEnvelope} (h : NewviewAccepted node outside ev s₀ nv nvEnv) :
    node.peerByUuid nvEnv.sender = node.primaryOf nv.view := by
  obtain ⟨peer, hprimary, hsender⟩ := h.validNewview.primaryOf
  rw [hprimary, hsender]
  exact Node.peerByUuid_eq hdistinct (Node.mem_of_primaryOf hprimary)

/-- The view after an event at which the process goes on, or ends. -/
theorem storedView_event (hs : s₀.Kept node) (past : List Effect) (outside : Outside) (ev : Event) :
    ∃ s, Relation.ReflTransGen (Step node outside ev s₀) s₀ s ∧
      let v := ((Machine.up past s₀).happens node (.event outside ev)).storedView
      (v = s.pbft.view ∨ s.pbft.view = s₀.pbft.view ∧
        ∃ nv nvEnv, NewviewAccepted node outside ev s₀ nv nvEnv ∧ v = nv.view) := by
  unfold Machine.happens
  dsimp only
  split
  · rename_i s hr
    have hsteps := event_ok hs hr
    exact ⟨s, hsteps, .inl (storedView_up (hs.run hsteps))⟩
  · rename_i e s' hr
    obtain ⟨s, hsteps, hcrash⟩ := event_error hs hr
    obtain ⟨b, hb, hleaves⟩ := hcrash.durable (hs.run hsteps)
    refine ⟨s, hsteps, ?_⟩
    rw [storedView_down hb]
    exact hleaves.view

theorem primary_upheld (hdistinct : (node.peers.current.map (·.uuid)).Nodup) :
    Upheld node (KeepsView node) (fun _ _ s => s.pbft.pinnedPrimary = node.primaryOf s.pbft.view)
      (fun _ _ _ => True) where
  first := trivial
  returns hs past s outside ev s' _ hk hU ha hr := by
    cases steps_view (event_ok hk hr) with
    | same view primary => rw [view, primary, hU]
    | newview _ _ accepted view primary => rw [view, primary, accepted.primary_eq hdistinct]
    | state nv nvEnv received view primary =>
      rw [view, primary]
      exact (ha s outside ev nv nvEnv rfl rfl received).2
  throws hs past s outside ev e s' _ hk _ _ hr := by
    obtain ⟨s₁, hsteps, hcrash⟩ := event_error hk hr
    obtain ⟨b, hb, -⟩ := hcrash.durable (hk.run hsteps)
    exact ⟨b, hb, trivial⟩
  stops _ _ _ _ _ _ _ := trivial
  waits _ _ _ _ _ _ _ := trivial
  restarts hs log b s _ hr := by rw [hr.pinnedPrimary, hr.view]
  fails _ _ _ _ _ _ := trivial

end

/-- The stored view does not go back, and it changes only to that of a NEWVIEW
that was found valid. -/
def ViewMovesOn (node : Node) (m : Machine) (a : Happening) : Prop :=
  m.storedView ≤ (m.happens node a).storedView ∧
  ((m.happens node a).storedView ≠ m.storedView → ∃ s outside ev nv nvEnv, m.replica? = some s ∧
    a = .event outside ev ∧ NewviewAccepted node outside ev s nv nvEnv ∧ nv.view = (m.happens node a).storedView)

theorem viewMovesOn_of_eq {node : Node} {m : Machine} {a : Happening}
    (h : (m.happens node a).storedView = m.storedView) : ViewMovesOn node m a :=
  ⟨h ▸ UInt64.le_rfl, fun hne => absurd h hne⟩

variable {past : List Effect}

theorem viewMovesOn_of_newview {node : Node} {s : Replica} {outside : Outside} {ev : Event} {nv : PbftMsg}
    {nvEnv : BznEnvelope} (hs : s.Kept node) (h : NewviewAccepted node outside ev s nv nvEnv)
    (hv : ((Machine.up past s).happens node (.event outside ev)).storedView = nv.view) :
    ViewMovesOn node (.up past s) (.event outside ev) := by
  refine ⟨?_, fun _ => ⟨s, outside, ev, nv, nvEnv, rfl, rfl, h, hv.symm⟩⟩
  rw [hv, storedView_up hs]
  exact UInt64.le_of_lt h.validNewview.next

theorem viewMovesOn_event {node : Node} {s : Replica} {outside : Outside} {ev : Event} (hs : s.Kept node)
    (ha : KeepsView node (.up past s) (.event outside ev)) : ViewMovesOn node (.up past s) (.event outside ev) := by
  obtain ⟨s₁, hsteps, hv | ⟨-, nv, nvEnv, haccepted, hv⟩⟩ := storedView_event hs past outside ev
  · cases steps_view hsteps with
    | same view => exact viewMovesOn_of_eq (by rw [hv, view, storedView_up hs])
    | newview _ _ accepted view => exact viewMovesOn_of_newview hs accepted (hv.trans view)
    | state nv nvEnv received view =>
      refine viewMovesOn_of_eq ?_
      rw [hv, view, storedView_up hs]
      exact (ha s outside ev nv nvEnv rfl rfl received).1
  · exact viewMovesOn_of_newview hs haccepted hv

/-- Among peers with different names, and as long as no state brings another view
or primary: the primary is the peer whose turn it is, the stored view never goes
back, and it changes only to that of a NEWVIEW that was found valid. -/
theorem view_kept {node : Node} (hdistinct : (node.peers.current.map (·.uuid)).Nodup) {hs : List Happening}
    {m : Machine} (h : Machine.Runs node (KeepsView node) hs m) :
    (∀ s, m.replica? = some s → s.pbft.view = m.storedView ∧ s.pbft.pinnedPrimary = node.primaryOf s.pbft.view) ∧
    ∀ a, KeepsView node m a → ViewMovesOn node m a := by
  have hm := (primary_upheld hdistinct).run h
  cases m with
  | up past s =>
    obtain ⟨hk, hprimary⟩ := hm
    refine ⟨?_, fun a ha => ?_⟩
    · rintro _ ⟨⟩
      exact ⟨(storedView_up hk).symm, hprimary⟩
    · cases a with
      | event outside ev => exact viewMovesOn_event hk ha
      | restart lifetime => exact viewMovesOn_of_eq (storedView_restart (m := .up past s) hk.durable rfl lifetime)
  | down past p =>
    obtain ⟨b, hb, -⟩ := hm
    refine ⟨fun s hup => (by cases hup), fun a _ => ?_⟩
    cases a with
    | event outside ev => exact viewMovesOn_of_eq rfl
    | restart lifetime => exact viewMovesOn_of_eq (storedView_restart (m := .down past p) hb rfl lifetime)

theorem keepsView_of_newview (m : Machine) (outside : Outside) (rest : Bytes) :
    KeepsView (strictNode "C") m (.event outside (namedNewview rest)) := by
  rintro s _ _ nv nvEnv - ⟨⟩ hstate
  obtain ⟨inner, hreceived, -⟩ := hstate.received
  exact absurd hreceived (not_stateReceived rfl inner)

/-- C enters view 2 with its own NEWVIEW. -/
theorem view_kept_entering :
    let node := strictNode "C"
    let m := Machine.after node [.restart none]
    m.storedView = 1 ∧ (m.happens node (.event laterOutside (namedNewview []))).storedView = 2 ∧
    ViewMovesOn node m (.event laterOutside (namedNewview [])) := by
  have hstart : Machine.Runs (strictNode "C") (KeepsView (strictNode "C")) [.restart none]
      (Machine.after (strictNode "C") [.restart none]) :=
    Machine.runs_concat .start fun s outside ev nv nvEnv _ h => by cases h
  exact ⟨by decide +kernel, by decide +kernel,
    (view_kept (by decide) hstart).2 _ (keepsView_of_newview _ laterOutside [])⟩

/-- A message with a checkpoint, which nobody has signed. -/
def unsignedCheckpoint (sender : String) : BznEnvelope :=
  { (default : BznEnvelope) with
    sender := ascii sender, payload := .checkpointMsg (Wire.plain.checkpointMsg.serialize ⟨100, ascii "h"⟩) }

/-- A state that comes with a message in the name of D for view 0. -/
def stateWithView : Event :=
  .message (signedBySender { (default : BznEnvelope) with
    swarmId := ascii "swarm"
    sender := ascii "B"
    payload := .pbftMembership (Wire.plain.pbftMembershipMsg.serialize { (default : PbftMembershipMsg) with
      type := .setState
      sequence := 100
      stateHash := ascii "h"
      checkpointProof := [unsignedCheckpoint "B", unsignedCheckpoint "C"]
      newviewMsg? := some { (default : BznEnvelope) with
        sender := ascii "D"
        payload := .pbft (Wire.plain.pbftMsg.serialize { (default : PbftMsg) with view := 0 }) } }) }) none

/-- The message of one peer takes a replica from view 1 back to view 0, with a
primary whose turn it is not, and there is no NEWVIEW at all. -/
theorem view_goes_back :
    let node := sampleNode fourPeers "A"
    let m := Machine.after node [.restart none]
    let m' := m.happens node (.event sampleOutside stateWithView)
    Machine.Runs node (fun _ _ => True) [.restart none] m ∧ m.storedView = 1 ∧ m'.storedView = 0 ∧
    (m'.replica?.map fun s => s.pbft.pinnedPrimary) = some (some (samplePeer "D")) ∧
    node.primaryOf 0 = some (samplePeer "A") ∧
    ∀ s nv nvEnv, m.replica? = some s → ¬ NewviewAccepted node sampleOutside stateWithView s nv nvEnv := by
  refine ⟨Machine.runs_after _ _, by decide +kernel, by decide +kernel, by decide +kernel, by decide +kernel, ?_⟩
  rintro s nv nvEnv - haccepted
  obtain ⟨session, hev⟩ := haccepted.event
  obtain ⟨text, hpayload⟩ := haccepted.payload
  cases hev
  cases hpayload

end SwarmDb
