import SwarmDb.Lib.History
import SwarmDb.Pbft.Construction
import SwarmDb.Pbft.EventSteps

/-!
# Runs of a replica

A replica handles one event after another. Its process may be killed at any effect, or end by an exception, and is
started again over the storage that is left (`happens`). `Durable node p b` says that the storage of `p` is what a
replica with `b` leaves (`Crash.durable`, `replicaOver_error`). `Upheld` collects what an invariant of all runs has to
satisfy.
-/

namespace SwarmDb

open Lib Program

/-! ## What a process leaves -/

/-- The constructor of a value finds `a` in storage, or puts it there. -/
def Loads {α : Type} (p : Process) (c : Conversion α) (name : Bytes) (d a : α) : Prop :=
  Stored p c name a ∨ (p.stored (persistentKey name []) = none ∧ a = d)

namespace Loads

variable {α : Type} {p p' : Process} {c : Conversion α} {name : Bytes} {d a : α}

theorem frame {names : List Bytes} {E : Effect → Prop} (h : Loads p c name d a) (hf : p.Frame names E p')
    (hname : name ∉ names) : Loads p' c name d a := by
  rcases h with h | ⟨h, rfl⟩
  · exact .inl (h.frame hf hname)
  · exact .inr ⟨(hf.stored_of_notMem hname []).trans h, rfl⟩

theorem of_stored_eq (h : Loads p c name d a) (hp : p'.stored = p.stored) : Loads p' c name d a := by
  rcases h with h | ⟨h, rfl⟩
  · exact .inl (h.of_stored_eq hp)
  · exact .inr ⟨by rw [hp, h], rfl⟩

/-- The value that the constructor returns. -/
theorem persistent_ok (h : Loads p c name d a) (hc : c.fromString (c.toString a) = .ok a) {b : α}
    (hr : (persistent c d name []).result p = .ok b) : b = a ∧ Stored ((persistent c d name []).final p) c name a := by
  rcases h with h | ⟨h, rfl⟩
  · have hrun := h.persistent_runFrom (d := d) hc
    rw [result, hrun] at hr
    cases hr
    rw [final, hrun]
    exact ⟨rfl, h⟩
  · obtain ⟨-, ⟨val, hs, -⟩ | ⟨-, rfl, hw⟩⟩ := SwarmDb.persistent_ok hr
    · rw [h] at hs
      cases hs
    · exact ⟨rfl, .writes hw⟩

/-- The constructor, also one that fails, leaves a storage from which the value
is loaded. -/
theorem persistent_final (h : Loads p c name d a) (hc : c.fromString (c.toString a) = .ok a) :
    Loads ((persistent c d name []).final p) c name d a := by
  cases hr : (persistent c d name []).result p with
  | ok => exact .inl (h.persistent_ok hc hr).2
  | error =>
    rw [persistent_error hr]
    exact h

end Loads

/-- The single values of `b` are loaded from the storage of `p`. -/
structure ValuesLoad (p : Process) (b : Pbft) : Prop where
  view : Loads p .uint64 viewKey 1 b.view
  nextIssuedSequenceNumber : Loads p .uint64 nextIssuedSequenceNumberKey 1 b.nextIssuedSequenceNumber
  viewIsValid : Loads p .bool viewIsValidKey true b.viewIsValid
  lastViewSent : Loads p .uint64 lastViewSentKey 0 b.lastViewSent

/-- The storage of `p` is that of a replica with `b`. -/
structure Durable (node : Node) (p : Process) (b : Pbft) : Prop where
  values : ValuesLoad p b
  accepted : Holds p .operationKey acceptedPrepreparesKey acceptedSubkeys fun lk => b.acceptedPreprepares[lk]?
  viewchanges : Holds p (.envelope node.wire) validViewchangeMessagesForViewKey viewchangeSubkeys
    fun x => Map.lookup2 b.validViewchangeMessagesForView x.2 x.1
  acceptedKey : ∀ (lk : LogKey) (key : OperationKey), b.acceptedPreprepares[lk]? = some key →
    lk = ⟨key.view, key.sequence⟩
  noEmpty : Map.NoEmpty b.validViewchangeMessagesForView

/-- The replica and what it stores itself are in step. -/
structure Replica.Kept (node : Node) (s : Replica) : Prop where
  values : ValuesStored s.toProcess s.pbft
  containers : PbftContainers node s.toProcess s.pbft

section

variable {node : Node} {outside : Outside} {ev : Event} {s₀ s s' : Replica}

theorem Replica.Kept.durable (h : s.Kept node) : Durable node s.toProcess s.pbft where
  values := ⟨.inl h.values.view, .inl h.values.nextIssuedSequenceNumber, .inl h.values.viewIsValid,
    .inl h.values.lastViewSent⟩
  accepted := h.containers.accepted.toHolds
  viewchanges := h.containers.viewchanges.toHolds
  acceptedKey := h.containers.acceptedKey
  noEmpty := h.containers.noEmpty

theorem Replica.Kept.run (hs : s.Kept node) (h : Relation.ReflTransGen (Step node outside ev s₀) s s') :
    s'.Kept node := by
  induction h with
  | refl => exact hs
  | tail _ hstep ih => exact ⟨hstep.values ih.values, hstep.containers ih.containers⟩

section

variable {p p' : Process} {b : Pbft}

theorem ValuesLoad.frame {names : List Bytes} {E : Effect → Prop} (h : ValuesLoad p b) (hf : p.Frame names E p')
    (hnames : ∀ name ∈ valueNames, name ∉ names) : ValuesLoad p' b :=
  ⟨h.view.frame hf (hnames _ (by decide)), h.nextIssuedSequenceNumber.frame hf (hnames _ (by decide)),
    h.viewIsValid.frame hf (hnames _ (by decide)), h.lastViewSent.frame hf (hnames _ (by decide))⟩

namespace Durable

theorem frame {names : List Bytes} {E : Effect → Prop} (h : Durable node p b) (hf : p.Frame names E p')
    (hnames : ∀ name ∈ pbftNames, name ∉ names) : Durable node p' b where
  values := h.values.frame hf fun name hname => hnames name ((by decide : valueNames ⊆ pbftNames) hname)
  accepted := h.accepted.frame hf (hnames _ (by decide))
  viewchanges := h.viewchanges.frame hf (hnames _ (by decide))
  acceptedKey := h.acceptedKey
  noEmpty := h.noEmpty

theorem of_stored_eq (h : Durable node p b) (hp : p'.stored = p.stored) : Durable node p' b where
  values := ⟨h.values.view.of_stored_eq hp, h.values.nextIssuedSequenceNumber.of_stored_eq hp,
    h.values.viewIsValid.of_stored_eq hp, h.values.lastViewSent.of_stored_eq hp⟩
  accepted := h.accepted.of_stored_eq hp
  viewchanges := h.viewchanges.of_stored_eq hp
  acceptedKey := h.acceptedKey
  noEmpty := h.noEmpty

theorem writes_view (h : Durable node p b) {v : UInt64}
    (hw : p.Writes p' (persistentKey viewKey []) (some (Conversion.uint64.toString v))) :
    Durable node p' { b with view := v } := by
  have hf : p.Frame [viewKey] (fun _ => True) p' := .of_writes (List.mem_singleton_self _) hw
  exact ⟨⟨.inl (.writes hw), h.values.nextIssuedSequenceNumber.frame hf (by decide),
    h.values.viewIsValid.frame hf (by decide), h.values.lastViewSent.frame hf (by decide)⟩,
    h.accepted.frame hf (by decide), h.viewchanges.frame hf (by decide), h.acceptedKey, h.noEmpty⟩

end Durable

end

/-- What an end of the process in the state `s` leaves: the members of that
state, but perhaps the view of a NEWVIEW. -/
structure Leaves (node : Node) (outside : Outside) (ev : Event) (s₀ s : Replica) (b : Pbft) : Prop where
  acceptedPreprepares : b.acceptedPreprepares = s.pbft.acceptedPreprepares
  validViewchangeMessagesForView : b.validViewchangeMessagesForView = s.pbft.validViewchangeMessagesForView
  nextIssuedSequenceNumber : b.nextIssuedSequenceNumber = s.pbft.nextIssuedSequenceNumber
  viewIsValid : b.viewIsValid = s.pbft.viewIsValid
  lastViewSent : b.lastViewSent = s.pbft.lastViewSent
  view : b.view = s.pbft.view ∨ s.pbft.view = s₀.pbft.view ∧
    ∃ nv nvEnv, NewviewAccepted node outside ev s₀ nv nvEnv ∧ b.view = nv.view

theorem Crash.durable (h : Crash node outside ev s₀ s s') (hs : s.Kept node) :
    ∃ b, Durable node s'.toProcess b ∧ Leaves node outside ev s₀ s b := by
  have hsame : Leaves node outside ev s₀ s s.pbft := ⟨rfl, rfl, rfl, rfl, rfl, .inl rfl⟩
  cases h with
  | quiet frame => exact ⟨s.pbft, hs.durable.frame frame (by decide), hsame⟩
  | enter nv nvEnv accepted view writes =>
    exact ⟨_, hs.durable.writes_view writes, rfl, rfl, rfl, rfl, rfl, .inr ⟨view, nv, nvEnv, accepted, rfl⟩⟩
  | viewchange _ _ _ _ _ emits => exact ⟨s.pbft, hs.durable.of_stored_eq emits.stored, hsame⟩

/-! ## What an event leads to -/

/-- An event that is handled to its end. -/
theorem event_ok (hs : s.Kept node) (h : (ev.program node outside).runFrom s = (.ok (), s')) :
    Relation.ReflTransGen (Step node outside ev s) s s' := by
  have hspec := (event_spec node outside ev s s hs.containers rfl).1 () (by rw [result, h])
  rw [final, h] at hspec
  exact hspec.1

/-- An event at which the process ends. -/
theorem event_error {e : Fault} (hs : s.Kept node) (h : (ev.program node outside).runFrom s = (.error e, s')) :
    ∃ s₁, Relation.ReflTransGen (Step node outside ev s) s s₁ ∧ Crash node outside ev s s₁ s' := by
  obtain ⟨s₁, hsteps, hcrash⟩ := (event_spec node outside ev s s hs.containers rfl).2 e (by rw [result, h])
  rw [final, h] at hcrash
  exact ⟨s₁, hsteps, hcrash⟩

/-! ## Starting again -/

section

variable {p : Process} {b : Pbft}

/-- A program that leaves a storage from which the same replica is loaded. -/
def KeepsDurable (node : Node) (b : Pbft) : Process → Process → Prop := fun p p' => Durable node p b → Durable node p' b

instance : Std.Refl (KeepsDurable node b) := ⟨fun _ h => h⟩

instance : IsTrans Process (KeepsDurable node b) := ⟨fun _ _ _ h h' hp => h' (h hp)⟩

theorem newValues_durable : Within (KeepsDurable node b) newValues := by
  have hvalue : ∀ {α : Type} {c : Conversion α} {d : α} {name : Bytes}, name ∈ valueNames →
      (∀ p, ValuesLoad p b → ValuesLoad ((persistent c d name []).final p) b) →
      Within (KeepsDurable node b) (persistent c d name []) := by
    intro α c d name hname hload p h
    have hf : p.Frame [name] (fun _ => True) ((persistent c d name []).final p) :=
      Process.Frame.persistent (List.mem_singleton_self _) p
    have hne : ∀ other ∈ [acceptedPrepreparesKey, validViewchangeMessagesForViewKey], other ∉ [name] := by
      intro other hother hmem
      rw [List.mem_singleton.mp hmem] at hother
      exact (by decide : ∀ name ∈ valueNames, name ∉ [acceptedPrepreparesKey, validViewchangeMessagesForViewKey])
        name hname hother
    exact ⟨hload p h.values, h.accepted.frame hf (hne _ (by decide)), h.viewchanges.frame hf (hne _ (by decide)),
      h.acceptedKey, h.noEmpty⟩
  refine .bind (hvalue (by decide) fun p h => ?_) fun _ => .bind (hvalue (by decide) fun p h => ?_) fun _ =>
    .bind (hvalue (by decide) fun p h => ?_) fun _ => .bind (hvalue (by decide) fun p h => ?_) fun _ => .pure _
  all_goals
    have hf : ∀ {α : Type} {c : Conversion α} {d : α} {name : Bytes},
      p.Frame [name] (fun _ => True) ((persistent c d name []).final p) :=
        fun {α c d name} => Process.Frame.persistent (List.mem_singleton_self _) p
  · exact ⟨h.view.persistent_final (by simp), h.nextIssuedSequenceNumber.frame hf (by decide),
      h.viewIsValid.frame hf (by decide), h.lastViewSent.frame hf (by decide)⟩
  · exact ⟨h.view.frame hf (by decide), h.nextIssuedSequenceNumber.persistent_final (by simp),
      h.viewIsValid.frame hf (by decide), h.lastViewSent.frame hf (by decide)⟩
  · exact ⟨h.view.frame hf (by decide), h.nextIssuedSequenceNumber.frame hf (by decide),
      h.viewIsValid.persistent_final (by simp), h.lastViewSent.frame hf (by decide)⟩
  · exact ⟨h.view.frame hf (by decide), h.nextIssuedSequenceNumber.frame hf (by decide),
      h.viewIsValid.frame hf (by decide), h.lastViewSent.persistent_final (by simp)⟩

theorem newContainers_durable (v : FirstValues) (manager : CheckpointManager) :
    Within (KeepsDurable node b) (newContainers node v manager) := by
  refine .ite (.fail _) (.bind (fun p h => ?_) fun _ => .bind (fun p h => ?_) fun _ => .bind ?_ fun _ => .pure _)
  · rw [h.accepted.initKvContainer_final Conversion.logKey_faithful]
    exact h.of_stored_eq rfl
  · rw [h.viewchanges.initKvContainer2_final string_faithful
      (Conversion.faithful_of_total Conversion.uint64_fromString)]
    exact h.of_stored_eq rfl
  · have hemit : Within (Process.Frame [] fun _ => True) (emit
        (.saveServiceStateAt ((v.nextIssuedSequenceNumber / checkpointInterval + 1) * checkpointInterval))) :=
      .emit trivial
    exact hemit.mono fun p q hf h => h.frame hf fun _ _ => List.not_mem_nil

/-- The constructor leaves the storage of the same replica, also where it fails. -/
theorem newPbft_durable : Within (KeepsDurable node b) (newPbft node) := by
  rw [newPbft_eq]
  refine .bind newValues_durable fun v => .bind ?_ fun manager => newContainers_durable v manager
  have hman : Within (Process.Frame checkpointNames fun _ => True) newCheckpointManager := newCheckpointManager_within
  exact hman.mono fun p q hf h => h.frame hf (by decide)

theorem newValues_ok (h : ValuesLoad p b) {v : FirstValues} (hr : newValues.result p = .ok v) :
    v = ⟨b.view, b.nextIssuedSequenceNumber, b.viewIsValid, b.lastViewSent⟩ ∧ ValuesStored (newValues.final p) b := by
  obtain ⟨view, h₁, hr⟩ := result_bind_eq_ok hr
  obtain ⟨next, h₂, hr⟩ := result_bind_eq_ok hr
  obtain ⟨valid, h₃, hr⟩ := result_bind_eq_ok hr
  obtain ⟨sent, h₄, hr⟩ := result_bind_eq_ok hr
  cases hr
  rw [newValues, final_bind_ok h₁, final_bind_ok h₂, final_bind_ok h₃, final_bind_ok h₄, final_pure]
  have hf : ∀ {α : Type} {c : Conversion α} {d : α} {name : Bytes} (q : Process),
      q.Frame [name] (fun _ => True) ((persistent c d name []).final q) :=
    fun {α c d name} q => Process.Frame.persistent (List.mem_singleton_self _) q
  obtain ⟨rfl, hv⟩ := h.view.persistent_ok (by simp) h₁
  obtain ⟨rfl, hn⟩ := (h.nextIssuedSequenceNumber.frame (hf p) (by decide)).persistent_ok (by simp) h₂
  obtain ⟨rfl, ha⟩ := ((h.viewIsValid.frame (hf p) (by decide)).frame (hf _) (by decide)).persistent_ok (by simp) h₃
  obtain ⟨rfl, hs⟩ := (((h.lastViewSent.frame (hf p) (by decide)).frame (hf _) (by decide)).frame (hf _)
    (by decide)).persistent_ok (by simp) h₄
  exact ⟨rfl, ((hv.frame (hf _) (by decide)).frame (hf _) (by decide)).frame (hf _) (by decide),
    (hn.frame (hf _) (by decide)).frame (hf _) (by decide), ha.frame (hf _) (by decide), hs⟩

/-- A replica that was built over the storage of one with `b`. -/
structure Restarted (node : Node) (b : Pbft) (s : Replica) : Prop where
  kept : s.Kept node
  acceptedPreprepares : s.pbft.acceptedPreprepares = b.acceptedPreprepares
  validViewchangeMessagesForView : s.pbft.validViewchangeMessagesForView = b.validViewchangeMessagesForView
  view : s.pbft.view = b.view
  nextIssuedSequenceNumber : s.pbft.nextIssuedSequenceNumber = b.nextIssuedSequenceNumber
  viewIsValid : s.pbft.viewIsValid = b.viewIsValid
  lastViewSent : s.pbft.lastViewSent = b.lastViewSent
  lastExecutedSequenceNumber : s.pbft.lastExecutedSequenceNumber = 0
  savedNewview : s.pbft.savedNewview = default
  pinnedPrimary : s.pbft.pinnedPrimary = node.primaryOf b.view
  operations : s.pbft.operations = ∅
  log : ∀ e ∈ s.log, ∃ n, e = .saveServiceStateAt n

variable {lifetime : Option Nat} {q : Process}

/-- A replica that was built and started. -/
theorem replicaOver_eq_ok {storage : MemStorage} (h : replicaOver node lifetime storage = (.ok s, q)) :
    ∃ m b, (newPbft node).result { Process.start storage with lifetime := lifetime } = .ok (m, b) ∧
      s = ⟨⟨(newPbft node).final { Process.start storage with lifetime := lifetime }, m⟩, startPbft node b⟩ := by
  rw [replicaOver, runFrom_eq] at h
  cases hn : (newPbft node).result { Process.start storage with lifetime := lifetime } with
  | error =>
    rw [hn] at h
    cases h
  | ok r =>
    rw [hn] at h
    cases h
    exact ⟨_, _, rfl, rfl⟩

theorem replicaOver_ok (h : Durable node p b) (hr : replicaOver node lifetime p.storage = (.ok s, q)) :
    Restarted node b s := by
  have hd : Durable node { Process.start p.storage with lifetime := lifetime } b := h.of_stored_eq rfl
  obtain ⟨m, b', hn, rfl⟩ := replicaOver_eq_ok hr
  obtain ⟨v, hv, hm, hnew, hacc, hvcs, hcont, hf, hlast⟩ := newPbft_over hd.accepted hd.acceptedKey hd.viewchanges
    hd.noEmpty hn
  obtain ⟨rfl, hstored⟩ := newValues_ok hd.values hv
  have hfm : (newValues.final { Process.start p.storage with lifetime := lifetime }).Frame checkpointNames
      (fun e => ∃ n, e = .saveServiceStateAt n) _ :=
    (newCheckpointManager_within _).trans (hlast.mono (List.nil_subset _) fun _ => id)
  obtain ⟨l, hl, he⟩ := hf.log
  refine ⟨⟨?_, hcont.same rfl rfl⟩, hacc, hvcs, hnew.view, hnew.nextIssuedSequenceNumber, hnew.viewIsValid,
    hnew.lastViewSent, hnew.lastExecutedSequenceNumber, hnew.savedNewview, ?_, hnew.operations, ?_⟩
  · exact (hstored.frame hfm (by decide)).same hnew.view hnew.nextIssuedSequenceNumber hnew.viewIsValid
      hnew.lastViewSent
  · show node.primaryOf b'.view = _
    rw [hnew.view]
  · show ∀ e ∈ ((newPbft node).final _).log, _
    rw [hl]
    exact he

theorem newPbft_within : Within (Process.Frame (pbftNames ++ checkpointNames) fun e => ∃ n, e = .saveServiceStateAt n)
    (newPbft node) := by
  rw [newPbft_eq]
  refine .bind (newValues_within.mono fun _ _ h => h.mono (by decide) fun _ => id) fun v =>
    .bind (newCheckpointManager_within.mono fun _ _ h => h.mono (by decide) fun _ => id) fun manager => ?_
  exact .ite (.fail _) (.bind (.bind (.initializeContainer (by decide)) fun _ => .pure _) fun _ =>
    .bind (.bind (.initializeContainer (by decide)) fun _ => .pure _) fun _ => .bind (.emit ⟨_, rfl⟩) fun _ => .pure _)

theorem replicaOver_error (h : Durable node p b) {e : Fault}
    (hr : replicaOver node lifetime p.storage = (.error e, q)) :
    Durable node q b ∧ ∀ e ∈ q.log, ∃ n, e = .saveServiceStateAt n := by
  have hd : Durable node { Process.start p.storage with lifetime := lifetime } b := h.of_stored_eq rfl
  rw [replicaOver, runFrom_eq] at hr
  cases hn : (newPbft node).result { Process.start p.storage with lifetime := lifetime } with
  | ok => rw [hn] at hr; cases hr
  | error =>
    rw [hn] at hr
    cases hr
    refine ⟨newPbft_durable _ hd, ?_⟩
    have hf : Within _ (newPbft node) := newPbft_within
    obtain ⟨l, hl, he⟩ := (hf { Process.start p.storage with lifetime := lifetime }).log
    rw [hl]
    exact he

end

end

/-! ## Runs -/

/-- What happens to a replica: an event, or a new start of its process. -/
inductive Happening where
  | event (outside : Outside) (ev : Event)
  | restart (lifetime : Option Nat)

/-- A replica, or what its process left when it ended, after what the processes
before have done. -/
inductive Machine where
  | up (past : List Effect) (s : Replica)
  | down (past : List Effect) (p : Process)

namespace Machine

/-- A machine with an empty storage. -/
def new : Machine := down [] (.start default)

def storage : Machine → MemStorage
  | up _ s => s.storage
  | down _ p => p.storage

/-- All that the processes of the machine have done. -/
def log : Machine → List Effect
  | up past s => past ++ s.log
  | down past p => past ++ p.log

def happens (node : Node) (m : Machine) : Happening → Machine
  | .event outside ev =>
    match m with
    | up past s =>
      match (ev.program node outside).runFrom s with
      | (.ok _, s') => up past s'
      | (.error _, s') => down past s'.toProcess
    | down past p => down past p
  | .restart lifetime =>
    match replicaOver node lifetime m.storage with
    | (.ok s, _) => up m.log s
    | (.error _, p) => down m.log p

/-- The replica, where its process runs. -/
def replica? : Machine → Option Replica
  | up _ s => some s
  | down _ _ => none

/-- A new machine after all that has happened to it. -/
def after (node : Node) (hs : List Happening) : Machine := hs.foldl (happens node) new

/-- The runs of a replica from the first start on, with what happened in them. -/
abbrev Runs (node : Node) (allowed : Machine → Happening → Prop) : List Happening → Machine → Prop :=
  Reach (happens node) allowed new

theorem runs_after (node : Node) (hs : List Happening) : Runs node (fun _ _ => True) hs (after node hs) :=
  reach_foldl (fun _ _ => trivial) hs

variable {hs : List Happening} {node : Node}

variable {a : Happening} {past : List Effect}

theorem runs_concat {allowed : Machine → Happening → Prop} (h : Runs node allowed hs (after node hs))
    (ha : allowed (after node hs) a) : Runs node allowed (hs ++ [a]) (after node (hs ++ [a])) :=
  reach_foldl_concat h ha

/-- In a run a replica has handled an event of which `P` holds, with the state in
which the event found it. -/
def Handled (node : Node) (hs : List Happening) (P : Replica → Outside → Event → Prop) : Prop :=
  ∃ before outside ev after past s, hs = before ++ .event outside ev :: after ∧
    Machine.after node before = .up past s ∧ P s outside ev

variable {P : Replica → Outside → Event → Prop}

theorem Handled.concat (h : Handled node (hs ++ [a]) P) : Handled node hs P ∨
      ∃ outside ev past s, a = .event outside ev ∧ Machine.after node hs = .up past s ∧ P s outside ev := by
  obtain ⟨before, outside, ev, rest, past, s, heq, hup, hP⟩ := h
  rcases List.eq_nil_or_concat rest with rfl | ⟨rest', a', rfl⟩
  · obtain ⟨rfl, hlast⟩ := List.append_inj' heq rfl
    cases hlast
    exact .inr ⟨outside, ev, past, s, rfl, hup, hP⟩
  · have heq' : hs ++ [a] = (before ++ .event outside ev :: rest') ++ [a'] := by
      rw [heq]
      simp
    exact .inl ⟨before, outside, ev, rest', past, s, List.append_inj_left' heq' rfl, hup, hP⟩

theorem not_handled_nil : ¬ Handled node [] P := by
  rintro ⟨before, outside, ev, rest, past, s, heq, -⟩
  simp at heq

/-- What has been handled after an event. -/
theorem Handled.of_event {s : Replica} {outside : Outside} {ev : Event} (h : Handled node (hs ++ [.event outside ev]) P)
    (hup : after node hs = .up past s) : Handled node hs P ∨ P s outside ev := by
  rcases h.concat with hold | ⟨_, _, _, _, heq, hup', hP⟩
  · exact .inl hold
  · cases heq
    rw [hup] at hup'
    cases hup'
    exact .inr hP

theorem Handled.of_restart {lifetime : Option Nat}
    (h : Handled node (hs ++ [.restart lifetime]) P) : Handled node hs P := by
  rcases h.concat with hold | ⟨_, _, _, _, heq, -⟩
  · exact hold
  · cases heq

theorem Handled.of_down {p : Process} (h : Handled node (hs ++ [a]) P) (hdown : after node hs = .down past p) :
    Handled node hs P := by
  rcases h.concat with hold | ⟨_, _, _, _, -, hup, -⟩
  · exact hold
  · rw [hdown] at hup
    cases hup

end Machine

/-- What a replica holds before its first start. -/
def Pbft.initial : Pbft := ⟨1, 1, 0, ∅, [], true, 0, ∅, default, none, ∅, ∅⟩

theorem durable_initial (node : Node) : Durable node (.start default) .initial := by
  have hfree : (Process.start default).FreeOf pbftNames := .start pbftNames
  have hnone : ∀ name ∈ pbftNames, (Process.start default).stored (persistentKey name []) = none :=
    fun name hname => hfree.stored hname []
  refine ⟨⟨.inr ⟨hnone _ (by decide), rfl⟩, .inr ⟨hnone _ (by decide), rfl⟩, .inr ⟨hnone _ (by decide), rfl⟩,
    .inr ⟨hnone _ (by decide), rfl⟩⟩, ?_, ?_, ?_, Map.noEmpty_empty⟩
  · simp only [Pbft.initial]
    exact hfree.holds (by decide)
  · simp only [Pbft.initial]
    exact hfree.holds (by decide)
  · intro lk key h
    simp [Pbft.initial] at h

/-- A replica that was built and started over an empty storage. -/
theorem replicaOver_default {node : Node} {lifetime : Option Nat} {s : Replica} {q : Process}
    (h : replicaOver node lifetime default = (.ok s, q)) : s.Consistent node ∧ s.manager = .initial := by
  have hkept := (replicaOver_ok (durable_initial node) h).kept
  obtain ⟨m, b, hr, rfl⟩ := replicaOver_eq_ok h
  have hd : Durable node { Process.start default with lifetime := lifetime } .initial :=
    (durable_initial node).of_stored_eq rfl
  obtain ⟨v, -, hm, -, -, -, -, -, hlast⟩ := newPbft_over hd.accepted hd.acceptedKey hd.viewchanges hd.noEmpty hr
  have hvalues : Process.Frame valueNames (fun _ => True) _ _ := newValues_within
    { Process.start default with lifetime := lifetime }
  have hfree : ({ Process.start default with lifetime := lifetime } : Process).FreeOf checkpointNames :=
    (Process.FreeOf.start _).of_stored_eq rfl
  obtain ⟨hinitial, hmirrors⟩ := newCheckpointManager_first (hfree.frame hvalues (by decide)) hm
  exact ⟨⟨hmirrors.frame hlast (by simp), hkept.values, hkept.containers⟩, hinitial⟩

/-- What an invariant of all runs has to satisfy: `U` is what it says of a
replica that runs, and `D` what it says of the storage that a process left. -/
structure Upheld (node : Node) (allowed : Machine → Happening → Prop)
    (U : List Happening → List Effect → Replica → Prop) (D : List Happening → List Effect → Pbft → Prop) : Prop where
  first : D [] [] .initial
  returns : ∀ hs past s outside ev s', Machine.Runs node allowed hs (.up past s) → s.Kept node → U hs past s →
    allowed (.up past s) (.event outside ev) →
    (ev.program node outside).runFrom s = (.ok (), s') → U (hs ++ [.event outside ev]) past s'
  throws : ∀ hs past s outside ev e s', Machine.Runs node allowed hs (.up past s) → s.Kept node → U hs past s →
    allowed (.up past s) (.event outside ev) →
    (ev.program node outside).runFrom s = (.error e, s') →
    ∃ b, Durable node s'.toProcess b ∧ D (hs ++ [.event outside ev]) (past ++ s'.log) b
  stops : ∀ hs past s lifetime, s.Kept node → U hs past s → allowed (.up past s) (.restart lifetime) →
    D (hs ++ [.restart lifetime]) (past ++ s.log) s.pbft
  waits : ∀ hs past p b h, Machine.Runs node allowed hs (.down past p) → D hs (past ++ p.log) b →
    D (hs ++ [h]) (past ++ p.log) b
  restarts : ∀ hs log b s, D hs log b → Restarted node b s → U hs log s
  fails : ∀ hs log b l, D hs log b → (∀ e ∈ l, ∃ n, e = .saveServiceStateAt n) → D hs (log ++ l) b

/-- The invariant at a machine. -/
def Machine.Satisfies (node : Node) (U : List Happening → List Effect → Replica → Prop)
    (D : List Happening → List Effect → Pbft → Prop) (hs : List Happening) : Machine → Prop
  | up past s => s.Kept node ∧ U hs past s
  | down past p => ∃ b, Durable node p b ∧ D hs (past ++ p.log) b

section

variable {node : Node} {allowed : Machine → Happening → Prop} {U : List Happening → List Effect → Replica → Prop}
  {D : List Happening → List Effect → Pbft → Prop} {hs : List Happening} {m : Machine}

/-- A process that starts over the storage that one with `b` left. -/
theorem Upheld.restarted (h : Upheld node allowed U D) {p : Process} {b : Pbft} {log : List Effect}
    (hp : Durable node p b) (hD : D hs log b) (lifetime : Option Nat) :
    (match replicaOver node lifetime p.storage with
      | (.ok s, _) => Machine.up log s
      | (.error _, q) => .down log q).Satisfies node U D hs := by
  split
  · rename_i s q hr
    have hrestarted := replicaOver_ok hp hr
    exact ⟨hrestarted.kept, h.restarts hs log b s hD hrestarted⟩
  · rename_i e q hr
    obtain ⟨hq, hl⟩ := replicaOver_error hp hr
    exact ⟨b, hq, h.fails hs log b q.log hD hl⟩

theorem Upheld.happens (h : Upheld node allowed U D) (hr : Machine.Runs node allowed hs m)
    (hm : m.Satisfies node U D hs) {a : Happening} (ha : allowed m a) :
      (m.happens node a).Satisfies node U D (hs ++ [a]) := by
  cases m with
  | up past s =>
    obtain ⟨hk, hU⟩ := hm
    cases a with
    | event outside ev =>
      unfold Machine.happens
      dsimp only
      split
      · rename_i s' hrun
        exact ⟨hk.run (event_ok hk hrun), h.returns hs past s outside ev s' hr hk hU ha hrun⟩
      · rename_i e s' hrun
        exact h.throws hs past s outside ev e s' hr hk hU ha hrun
    | restart lifetime => exact h.restarted hk.durable (h.stops hs past s lifetime hk hU ha) lifetime
  | down past p =>
    obtain ⟨b, hp, hD⟩ := hm
    cases a with
    | event => exact ⟨b, hp, h.waits hs past p b _ hr hD⟩
    | restart lifetime => exact h.restarted hp (h.waits hs past p b _ hr hD) lifetime

/-- What every run satisfies. -/
theorem Upheld.run (h : Upheld node allowed U D) (hr : Machine.Runs node allowed hs m) :
    m.Satisfies node U D hs := by
  refine hr.invariant (I := fun hs m => m.Satisfies node U D hs) ?_ fun hs m a hr hm ha => h.happens hr hm ha
  exact ⟨.initial, durable_initial node, h.first⟩

/-! Invariants that every step keeps. -/

variable (hgrows : ∀ hs past s a, U hs past s → U (hs ++ [a]) past s)
  (hstep : ∀ hs past s₀ outside ev s s', .event outside ev ∈ hs → allowed (.up past s₀) (.event outside ev) →
    U hs past s₀ → U hs past s → Step node outside ev s₀ s s' → U hs past s')

include hgrows hstep

theorem steps_keep {past : List Effect} {s s' : Replica} {outside : Outside} {ev : Event} (hU : U hs past s)
    (ha : allowed (.up past s) (.event outside ev)) (hsteps : Relation.ReflTransGen (Step node outside ev s) s s') :
    U (hs ++ [.event outside ev]) past s' := by
  have hfirst := hgrows hs past s (.event outside ev) hU
  induction hsteps with
  | refl => exact hfirst
  | tail _ hst ih => exact hstep _ past s outside ev _ _ (by simp) ha hfirst ih hst

/-- An invariant of all runs from what every step keeps. -/
theorem Upheld.of_step (hfirst : D [] [] .initial)
    (hcrash : ∀ hs past s₀ outside ev s s' b, U hs past s → Crash node outside ev s₀ s s' →
      Leaves node outside ev s₀ s b → D hs (past ++ s'.log) b)
    (hstops : ∀ hs past s lifetime, s.Kept node → U hs past s → allowed (.up past s) (.restart lifetime) →
      D (hs ++ [.restart lifetime]) (past ++ s.log) s.pbft)
    (hwaits : ∀ hs log b h, D hs log b → D (hs ++ [h]) log b)
    (hrestarts : ∀ hs log b s, D hs log b → Restarted node b s → U hs log s)
    (hfails : ∀ hs log b l, D hs log b → (∀ e ∈ l, ∃ n, e = .saveServiceStateAt n) → D hs (log ++ l) b) :
    Upheld node allowed U D where
  first := hfirst
  returns hs past s outside ev s' _ hk hU ha hr := steps_keep hgrows hstep hU ha (event_ok hk hr)
  throws hs past s outside ev e s' _ hk hU ha hr := by
    obtain ⟨s₁, hsteps, hc⟩ := event_error hk hr
    obtain ⟨b, hb, hleaves⟩ := hc.durable (hk.run hsteps)
    exact ⟨b, hb, hcrash _ past s outside ev s₁ s' b (steps_keep hgrows hstep hU ha hsteps) hc hleaves⟩
  stops := hstops
  waits hs past p b h _ := hwaits hs _ b h
  restarts := hrestarts
  fails := hfails

end

end SwarmDb
