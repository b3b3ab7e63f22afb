import SwarmDb.Crud.Writing

/-!
# The writers of a database

The owner of a database adds writers and removes them again. `crud` keeps them as a list of strings, which it rebuilds
as a set with each change. A caller may write if and only if the last change that names the caller adds it
(`writers_run`), but for names with white space around them (`writer_untrimmed`).
-/

namespace SwarmDb.Crud

open Lib Program MemStorage

/-! ## The list of the writers -/

/-- Permissions with names of a kind are read back as they were printed. -/
def ReadsPermissions (json : JsonText) (valid : Bytes → Prop) : Prop :=
  ∀ policy maxSize owner writers, valid owner → (∀ writer ∈ writers, valid writer) →
    json.ReadsAs (permissionsOf policy maxSize owner writers) (permissionsOf policy maxSize owner writers)

/-- The names of a set, in their order. -/
def namesOf (set : Map Bytes Unit) : List Bytes := set.toList.map Prod.fst

/-- What a change does to the set of the writers. -/
def changed (owner : Bytes) (msg : Msg) (set : Map Bytes Unit) : Map Bytes Unit :=
  match msg with
  | .addWriters writers => writers.foldl (fun set writer => if writer ≠ owner then set.insert writer () else set) set
  | .removeWriters writers => writers.foldl (fun set writer => set.erase writer) set
  | _ => set

/-- Whether a change names a writer, and adds it. -/
def mention (name : Bytes) (msg : Msg) : Option Bool :=
  match msg with
  | .addWriters writers => if name ∈ writers then some true else none
  | .removeWriters writers => if name ∈ writers then some false else none
  | _ => none

variable {cfg : Config} {policy : UInt16} {maxSize : UInt64} {owner : Bytes} {set : Map Bytes Unit} {name : Bytes}

theorem mem_namesOf : name ∈ namesOf set ↔ (set[name]?).isSome := Map.mem_keys_iff

theorem nodup_namesOf (set : Map Bytes Unit) : (namesOf set).Nodup := Map.keys_nodup set

/-- The set is rebuilt from its names. -/
theorem foldl_namesOf (set : Map Bytes Unit) :
    (namesOf set).foldl (fun set writer => set.insert writer ()) (∅ : Map Bytes Unit) = set := by
  have hfold : ∀ (names : List Bytes) (start : Map Bytes Unit) (name : Bytes),
      ((names.foldl (fun set writer => set.insert writer ()) start : Map Bytes Unit)[name]?).isSome ↔
        name ∈ names ∨ (start[name]?).isSome := by
    intro names
    induction names with
    | nil => simp
    | cons first _ ih =>
      intro start name
      rw [List.foldl_cons, ih]
      by_cases h : first = name
      · simp [h]
      · simp [h, Ne.symm h]
  refine Map.ext_lookup fun name => ?_
  have := hfold (namesOf set) ∅ name
  rw [mem_namesOf] at this
  cases h : set[name]? with
  | none =>
    rw [h] at this
    exact Option.not_isSome_iff_eq_none.mp fun hs => by simpa using this.mp hs
  | some =>
    rw [h] at this
    obtain ⟨v, hv⟩ := Option.isSome_iff_exists.mp (this.mpr (.inl rfl))
    exact hv

theorem mapM_asString (names : List Bytes) :
    ((names.map Json.string).mapM fun writer => ofJson writer.asString) = .ok names := by
  induction names with
  | nil => rfl
  | cons _ _ ih =>
    rw [List.map_cons, List.mapM_cons, ih]
    rfl

theorem changeWriters_permissionsOf (change : Map Bytes Unit → Map Bytes Unit) (set : Map Bytes Unit) :
    changeWriters change (permissionsOf policy maxSize owner (namesOf set)) =
      .ok (permissionsOf policy maxSize owner (namesOf (change set))) := by
  have hmember : (permissionsOf policy maxSize owner (namesOf set)).member writersKey =
      .ok (.array ((namesOf set).map .string)) := by
    simp [permissionsOf, Json.member, show evictionPolicyKey ≠ writersKey by decide, show maxSizeKey ≠
      writersKey by decide,
      show ownerKey ≠ writersKey by decide]
  have hnames : ((change set).toList.map fun writer => Json.string writer.1) = (namesOf (change set)).map .string := by
    rw [namesOf, List.map_map]
    rfl
  rw [changeWriters, hmember]
  simp only [ofJson, except_ok_bind, Json.elements]
  have hstrings : ((namesOf set).map Json.string).mapM (fun writer => ofJson writer.asString) = .ok (namesOf set) :=
    mapM_asString _
  simp only [ofJson] at hstrings
  rw [hstrings, except_ok_bind, foldl_namesOf, hnames]
  rfl

theorem addWriters_permissionsOf (writers : List Bytes) (set : Map Bytes Unit) :
    addWriters writers (permissionsOf policy maxSize owner (namesOf set)) =
      .ok (permissionsOf policy maxSize owner (namesOf (changed owner (.addWriters writers) set))) := by
  have hmember : (permissionsOf policy maxSize owner (namesOf set)).member ownerKey = .ok (.string owner) := by
    simp [permissionsOf, Json.member, show evictionPolicyKey ≠ ownerKey by decide, show maxSizeKey ≠ ownerKey by decide]
  rw [addWriters, hmember]
  simp only [ofJson, except_ok_bind, Json.asString]
  exact changeWriters_permissionsOf _ set

theorem removeWriters_permissionsOf (writers : List Bytes) (set : Map Bytes Unit) :
    removeWriters writers (permissionsOf policy maxSize owner (namesOf set)) =
      .ok (permissionsOf policy maxSize owner (namesOf (changed owner (.removeWriters writers) set))) :=
  changeWriters_permissionsOf _ set

/-- A name other than that of the owner is in the set where the change names it to add it,
or does not name it and it was there. -/
theorem isSome_changed (hname : name ≠ owner) (msg : Msg) (set : Map Bytes Unit) :
    ((changed owner msg set)[name]?).isSome = (mention name msg).getD (set[name]?).isSome := by
  have hfold : ∀ {step : Map Bytes Unit → Bytes → Map Bytes Unit} {there : Bool}
      (_ : ∀ set writer, ((step set writer)[name]?).isSome = if name = writer then there else (set[name]?).isSome)
      (writers : List Bytes) (set : Map Bytes Unit), ((writers.foldl step set)[name]?).isSome =
        (if name ∈ writers then some there else none).getD (set[name]?).isSome := by
    intro step there hstep writers
    induction writers with
    | nil => exact fun _ => rfl
    | cons writer writers ih =>
      intro set
      rw [List.foldl_cons, ih, hstep]
      by_cases hin : name ∈ writers
      · rw [if_pos hin, if_pos (List.mem_cons_of_mem _ hin)]
        rfl
      · rw [if_neg hin]
        by_cases hw : name = writer
        · rw [if_pos hw, hw, if_pos (List.mem_cons_self ..)]
          rfl
        · rw [if_neg hw, if_neg fun h => (List.mem_cons.mp h).elim hw hin]
  cases msg with
  | addWriters writers =>
    refine hfold (fun set writer => ?_) writers set
    by_cases hw : name = writer
    · rw [← hw, if_pos hname, Map.lookup_insert, if_pos rfl, if_pos rfl]
      rfl
    · rw [if_neg hw]
      split
      · rw [Map.lookup_insert, if_neg (Ne.symm hw)]
      · rfl
  | removeWriters writers =>
    refine hfold (fun set writer => ?_) writers set
    rw [Map.lookup_erase]
    by_cases hw : name = writer
    · rw [if_pos hw.symm, if_pos hw]
      rfl
    · rw [if_neg (Ne.symm hw), if_neg hw]
  | _ => rfl

/-- The name of the owner is never added. -/
theorem isSome_of_changed_owner {msg : Msg} (h : ((changed owner msg set)[owner]?).isSome) : (set[owner]?).isSome := by
  have hadd : ∀ (writers : List Bytes) (set : Map Bytes Unit),
      (writers.foldl (fun set writer => if writer ≠ owner then set.insert writer () else set) set :
        Map Bytes Unit)[owner]? =
        set[owner]? := by
    intro writers
    induction writers with
    | nil => exact fun _ => rfl
    | cons _ _ ih =>
      intro set
      rw [List.foldl_cons, ih]
      split
      · rename_i hw
        rw [Map.lookup_insert, if_neg hw]
      · rfl
  have hremove : ∀ (writers : List Bytes) (set : Map Bytes Unit),
      ((writers.foldl (fun set writer => set.erase writer) set : Map Bytes Unit)[owner]?).isSome →
        (set[owner]?).isSome := by
    intro writers
    induction writers with
    | nil => exact fun _ => id
    | cons _ _ ih =>
      intro set hs
      have hs := ih _ hs
      rw [Map.lookup_erase] at hs
      split at hs
      · cases hs
      · exact hs
  cases msg with
  | addWriters writers => exact hadd writers set ▸ h
  | removeWriters writers => exact hremove writers set h
  | _ => exact h

/-- A name in the set was there, or is added. -/
theorem mem_of_mem_changed {msg : Msg} (h : name ∈ namesOf (changed owner msg set)) :
    name ∈ namesOf set ∨ name ≠ owner ∧ ∃ writers, msg = .addWriters writers ∧ name ∈ writers := by
  rw [mem_namesOf] at h ⊢
  by_cases hname : name = owner
  · subst hname
    exact .inl (isSome_of_changed_owner h)
  · rw [isSome_changed hname, mention.eq_def] at h
    split at h
    · rename_i writers
      split at h
      · rename_i hin
        exact .inr ⟨hname, writers, rfl, hin⟩
      · exact .inl h
    · split at h
      · cases h
      · exact .inl h
    · exact .inl h

/-! ## One request -/

/-- Whether a request is answered with ok. -/
def accepted (cfg : Config) (s : Crud) (c : Call) : Bool :=
  (answersSince s ((handleRequest cfg c.env c.callerId c.request c.session).final s)).any fun a => a.result = .ok

/-- A change of the writers of a database by its owner. -/
structure ChangesWriters (uuid owner : Bytes) (c : Call) : Prop where
  database : c.request.dbUuid = uuid
  byOwner : trimCopy c.callerId = owner
  change : (∃ writers, c.request.msg = .addWriters writers) ∨ ∃ writers, c.request.msg = .removeWriters writers

/-- The names in a request. -/
def Request.names (request : Request) : List Bytes :=
  match request.msg with
  | .addWriters writers | .removeWriters writers => writers
  | _ => []

/-- The permissions of a database, as they are stored. -/
def Stores (cfg : Config) (st : MemStorage) (uuid : Bytes) (policy : UInt16) (maxSize : UInt64) (owner : Bytes)
    (set : Map Bytes Unit) : Prop :=
  st.read permissionUuid uuid = some (cfg.json.toStyledString (permissionsOf policy maxSize owner (namesOf set)))

variable {valid : Bytes → Prop} {uuid : Bytes}

theorem getDatabasePermissions_of_stores (hjson : ReadsPermissions cfg.json valid) {st : MemStorage}
    (hst : Stores cfg st uuid policy maxSize owner set) (howner : valid owner)
    (hset : ∀ name ∈ namesOf set, valid name) :
    getDatabasePermissions cfg st uuid = .ok (some (permissionsOf policy maxSize owner (namesOf set))) := by
  rw [getDatabasePermissions, has_eq, hst, Option.isSome_some, if_pos rfl]
  dsimp only
  rw [hjson _ _ _ _ howner hset]

theorem isCallerOwner_permissionsOf (callerId : Bytes) (writers : List Bytes) :
    isCallerOwner callerId (permissionsOf policy maxSize owner writers) = .ok (decide (owner = trimCopy callerId)) := by
  simp [isCallerOwner, permissionsOf, Json.member, ofJson, Json.isString, bind, Except.bind, pure, Except.pure,
    show evictionPolicyKey ≠ ownerKey by decide, show maxSizeKey ≠ ownerKey by decide]

variable {s : Crud} {c : Call}

theorem accepted_of_run {s' : Crud}
    (h : (handleRequest cfg c.env c.callerId c.request c.session).runFrom s =
      (.ok (), answered cfg c.request c.session .ok s')) (hs : s'.answers = s.answers) : accepted cfg s c = true := by
  have hone : (answersSince s (answered cfg c.request c.session .ok s')).map Answer.result = [.ok] :=
    answersSince_answered hs
  obtain ⟨a, ha, hresult⟩ := List.map_eq_singleton_iff.mp hone
  rw [accepted, final, h, ha, List.any_cons, hresult]
  rfl

/-- A change of the writers is saved and answered with ok, or nothing changes. -/
theorem stores_changed (hjson : ReadsPermissions cfg.json valid)
    (hst : Stores cfg s.storage uuid policy maxSize owner set) (howner : valid owner)
    (hset : ∀ name ∈ namesOf set, valid name) (hc : ChangesWriters uuid owner c) :
    Stores cfg ((handleRequest cfg c.env c.callerId c.request c.session).final s).storage uuid policy maxSize owner
      (if accepted cfg s c then changed owner c.request.msg set else set) := by
  obtain ⟨change, hchange, hbody⟩ : ∃ change : Json → Except Fault Json,
      change (permissionsOf policy maxSize owner (namesOf set)) =
        .ok (permissionsOf policy maxSize owner (namesOf (changed owner c.request.msg set))) ∧
      handleRequest cfg c.env c.callerId c.request c.session =
        handleWriterChange cfg c.callerId c.request c.session change := by
    rcases hc.change with ⟨writers, hm⟩ | ⟨writers, hm⟩
    · refine ⟨addWriters writers, ?_, by rw [handleRequest, hm]; rfl⟩
      rw [hm]
      exact addWriters_permissionsOf writers set
    · refine ⟨removeWriters writers, ?_, by rw [handleRequest, hm]; rfl⟩
      rw [hm]
      exact removeWriters_permissionsOf writers set
  have hperms := getDatabasePermissions_of_stores hjson hst howner hset
  rw [← hc.database] at hperms
  have hrun : (handleRequest cfg c.env c.callerId c.request c.session).runFrom s =
      let updated := s.storage.update permissionUuid c.request.dbUuid
        (cfg.json.toStyledString (permissionsOf policy maxSize owner (namesOf (changed owner c.request.msg set))))
      if updated.1 = .ok then (.ok (), answered cfg c.request c.session .ok { s with storage := updated.2 })
      else (.error (.runtimeError ("Failed to update database permissions: " ++ updated.1.msg)), s) := by
    rw [hbody, handleWriterChange, runFrom_permitted hperms (by
      rw [isCallerOwner_permissionsOf, decide_eq_true hc.byOwner.symm]), runFrom_bind, runFrom_read]
    dsimp only
    rw [runFrom_bind, runFrom_lift, hchange]
    dsimp only
    split
    · rfl
    · rfl
  by_cases hok : (s.storage.update permissionUuid c.request.dbUuid (cfg.json.toStyledString
      (permissionsOf policy maxSize owner (namesOf (changed owner c.request.msg set))))).1 = .ok
  · rw [if_pos hok] at hrun
    rw [if_pos (accepted_of_run hrun rfl), final, hrun, Stores, storage_answered]
    rw [read_update hok, if_pos ⟨rfl, hc.database⟩]
  · rw [if_neg hok] at hrun
    have haccepted : ¬ accepted cfg s c = true := by
      rw [accepted, final, hrun, answersSince_self]
      exact Bool.false_ne_true
    rw [if_neg haccepted, final, hrun]
    exact hst

/-! ## Runs -/

/-- The requests of a run that were answered with ok. -/
def acceptedCalls (cfg : Config) : List Call → Crud → List Call
  | [], _ => []
  | c :: calls, s =>
    (if accepted cfg s c then [c] else []) ++
      acceptedCalls cfg calls ((handleRequest cfg c.env c.callerId c.request c.session).final s)

/-- Whether the last request of a list that names a writer adds it. -/
def lastMention (name : Bytes) (calls : List Call) : Option Bool :=
  (calls.filterMap fun c => mention name c.request.msg).getLast?

theorem lastMention_append (name : Bytes) (calls calls' : List Call) (otherwise : Bool) :
    (lastMention name (calls ++ calls')).getD otherwise =
      (lastMention name calls').getD ((lastMention name calls).getD otherwise) := by
  rw [lastMention, List.filterMap_append, List.getLast?_append, lastMention]
  cases (calls'.filterMap fun c => mention name c.request.msg).getLast? <;> rfl

theorem lastMention_singleton (name : Bytes) (c : Call) : lastMention name [c] = mention name c.request.msg := by
  rw [lastMention, List.filterMap_cons]
  cases mention name c.request.msg <;> rfl

/-- The set of the writers after a run of changes by the owner. -/
theorem stores_run (hjson : ReadsPermissions cfg.json valid) {calls : List Call}
    (hst : Stores cfg s.storage uuid policy maxSize owner set) (howner : valid owner)
    (hset : ∀ name ∈ namesOf set, valid name) (hcalls : ∀ c ∈ calls, ChangesWriters uuid owner c)
    (hvalid : ∀ c ∈ calls, ∀ name ∈ c.request.names, valid name) :
    ∃ set', Stores cfg (serve cfg calls s).storage uuid policy maxSize owner set' ∧
      (∀ name ∈ namesOf set', valid name) ∧
      (∀ name, name ≠ owner →
        (set'[name]?).isSome = (lastMention name (acceptedCalls cfg calls s)).getD (set[name]?).isSome) ∧
      ∀ name ∈ namesOf set', name ∈ namesOf set ∨
        name ≠ owner ∧ ∃ c ∈ calls, ∃ writers, c.request.msg = .addWriters writers ∧ name ∈ writers := by
  induction calls generalizing s set with
  | nil => exact ⟨set, hst, hset, fun _ _ => rfl, fun name hname => .inl hname⟩
  | cons c _ ih =>
    have hstep := stores_changed hjson hst howner hset (hcalls c (List.mem_cons_self ..))
    have hadded : ∀ name ∈ namesOf (if accepted cfg s c then changed owner c.request.msg set else set),
        name ∈ namesOf set ∨ name ≠ owner ∧ ∃ writers, c.request.msg = .addWriters writers ∧ name ∈ writers := by
      intro name hname
      split at hname
      · exact mem_of_mem_changed hname
      · exact .inl hname
    have hset₁ : ∀ name ∈ namesOf (if accepted cfg s c then changed owner c.request.msg set else set), valid name := by
      intro name hname
      rcases hadded name hname with h | ⟨-, writers, hm, hin⟩
      · exact hset name h
      · refine hvalid c (List.mem_cons_self ..) name ?_
        rw [Request.names, hm]
        exact hin
    obtain ⟨set', hst', hset', hmention, hfrom⟩ := ih hstep hset₁
      (fun d hd => hcalls d (List.mem_cons_of_mem _ hd)) fun d hd => hvalid d (List.mem_cons_of_mem _ hd)
    refine ⟨set', hst', hset', fun name hname => ?_, fun name hname => ?_⟩
    · rw [hmention name hname, acceptedCalls, lastMention_append]
      congr 1
      split
      · rw [isSome_changed hname, lastMention_singleton]
      · rfl
    · rcases hfrom name hname with h | ⟨hne, d, hd, h⟩
      · rcases hadded name h with h | ⟨hne, h⟩
        · exact .inl h
        · exact .inr ⟨hne, c, List.mem_cons_self .., h⟩
      · exact .inr ⟨hne, d, List.mem_cons_of_mem _ hd, h⟩

/-- A create_db that is answered with ok. -/
theorem stores_created {m : CreateDb} (hm : c.request.msg = .createDb m) (h : accepted cfg s c) :
    Stores cfg ((handleRequest cfg c.env c.callerId c.request c.session).final s).storage c.request.dbUuid
      m.evictionPolicy.number.toUInt16 m.maxSize (trimCopy c.callerId) ∅ := by
  obtain ⟨a, ha, hok⟩ := List.any_eq_true.mp h
  have hok := of_decide_eq_true hok
  have hbody : handleRequest cfg c.env c.callerId c.request c.session =
      handleCreateDb cfg c.callerId c.request c.session m := by
    rw [handleRequest, hm]
  rw [hbody, handleCreateDb, final_read_bind] at ha ⊢
  split at ha
  · cases eq_ok_of_answered ha hok
  · split at ha
    · cases eq_ok_of_answered ha hok
    · split at ha
      · cases eq_ok_of_answered ha hok
      · rename_i hreserved hexists hsize
        obtain ⟨exceeds, -, hfinal⟩ := exists_ok_of_answer ha
        rw [if_neg hreserved, if_neg hexists, if_neg hsize, hfinal]
        rw [hfinal] at ha
        cases exceeds with
        | true => cases eq_ok_of_answered ha hok
        | false =>
          have hcreated := (result_of_mem_answered (by rfl) ha).symm.trans hok
          exact (read_create hcreated ..).trans (if_pos ⟨rfl, rfl⟩)

/-! ## The rule -/

/-- The stored list is without duplicates and without a name that passes for the owner,
and a caller other than the owner and the peers may write if and only if the last accepted
change that names the caller adds it. -/
structure WritersRule (cfg : Config) (st : MemStorage) (uuid : Bytes) (history : List Call) (name : Bytes) : Prop where
  stored : ∃ (perms : Json) (writers : List Bytes), getDatabasePermissions cfg st uuid = .ok (some perms) ∧
    perms.member writersKey = .ok (.array (writers.map .string)) ∧ writers.Nodup ∧
    (∀ writer ∈ writers, isCallerOwner writer perms = .ok false) ∧
    (isCallerOwner name perms = .ok false → trimCopy name ∉ cfg.peers →
      (isCallerAWriter cfg name perms = .ok true ↔ lastMention name history = some true))

theorem isCallerAWriter_permissionsOf {writers : List Bytes} (howner : owner ≠ trimCopy name)
    (hpeer : trimCopy name ∉ cfg.peers) :
    isCallerAWriter cfg name (permissionsOf policy maxSize owner writers) = .ok (decide (trimCopy name ∈ writers)) := by
  have hmember : (permissionsOf policy maxSize owner writers).member writersKey =
    .ok (.array (writers.map .string)) := by
    simp [permissionsOf, Json.member, show evictionPolicyKey ≠ writersKey by decide, show maxSizeKey ≠
      writersKey by decide,
      show ownerKey ≠ writersKey by decide]
  have hany : ((writers.map Json.string).any fun writerId => writerId.isString (trimCopy name)) =
      decide (trimCopy name ∈ writers) := by
    rw [Bool.eq_iff_iff, List.any_map, List.any_eq_true, decide_eq_true_iff]
    constructor
    · rintro ⟨writer, hwriter, heq⟩
      exact of_decide_eq_true heq ▸ hwriter
    · exact fun h => ⟨_, h, decide_eq_true rfl⟩
  have hpeers : (cfg.peers.any fun uuid => decide (uuid = trimCopy name)) = false := by
    rw [List.any_eq_false]
    intro uuid huuid heq
    exact hpeer (of_decide_eq_true heq ▸ huuid)
  rw [isCallerAWriter, hmember]
  simp only [ofJson, except_ok_bind, Json.elements, hany, hpeers, isCallerOwner_permissionsOf, decide_eq_false howner]
  by_cases h : trimCopy name ∈ writers
  · rw [decide_eq_true h]
    rfl
  · rw [if_neg (by simpa using h), if_neg Bool.false_ne_true, decide_eq_false h]

/-- For every run of changes of the writers by the owner of a database, from its creation
on: the rule holds for names without white space around them, where no other name that is
added becomes the one of the owner when it is trimmed. -/
theorem writers_run (cfg : Config) (valid : Bytes → Prop) (hjson : ReadsPermissions cfg.json valid) (s : Crud)
    (created : Call) (m : CreateDb) (hm : created.request.msg = .createDb m) (hcreated : accepted cfg s created)
    (howner : valid (trimCopy created.callerId)) (calls : List Call)
    (hcalls : ∀ c ∈ calls, ChangesWriters created.request.dbUuid (trimCopy created.callerId) c)
    (hvalid : ∀ c ∈ calls, ∀ name ∈ c.request.names, valid name)
    (hadded : ∀ c ∈ calls, ∀ writers, c.request.msg = .addWriters writers → ∀ name ∈ writers,
      trimCopy name = trimCopy created.callerId → name = trimCopy created.callerId)
    (name : Bytes) (hname : trimCopy name = name) :
    WritersRule cfg (serve cfg (created :: calls) s).storage created.request.dbUuid
      (acceptedCalls cfg calls (serve cfg [created] s)) name := by
  have hempty : namesOf ∅ = [] := by decide
  obtain ⟨set, hst, hset, hmention, hfrom⟩ := stores_run hjson (stores_created hm hcreated) howner
    (fun name hname => by rw [hempty] at hname; cases hname) hcalls hvalid
  refine ⟨_, namesOf set, getDatabasePermissions_of_stores hjson hst howner hset, ?_, nodup_namesOf set,
    fun writer hwriter => ?_, fun hnot hpeer => ?_⟩
  · simp [permissionsOf, Json.member, show evictionPolicyKey ≠ writersKey by decide, show maxSizeKey ≠
      writersKey by decide,
      show ownerKey ≠ writersKey by decide]
  · rw [isCallerOwner_permissionsOf]
    rcases hfrom writer hwriter with h | ⟨hne, c, hc, writers, hmsg, hin⟩
    · rw [hempty] at h
      cases h
    · rw [decide_eq_false fun heq => hne (hadded c hc writers hmsg writer hin heq.symm)]
  · rw [isCallerOwner_permissionsOf, Except.ok.injEq, decide_eq_false_iff_not] at hnot
    have hmem : (set[name]?).isSome = (lastMention name (acceptedCalls cfg calls (serve cfg [created] s))).getD
        ((∅ : Map Bytes Unit)[name]?).isSome := hmention name fun heq => hnot (by rw [hname, heq])
    rw [isCallerAWriter_permissionsOf hnot hpeer, hname, Except.ok.injEq, decide_eq_true_iff, mem_namesOf, hmem,
      Map.lookup_empty]
    cases lastMention name (acceptedCalls cfg calls (serve cfg [created] s)) with
    | none => simp
    | some added => simp

theorem readsPermissions_plain : ReadsPermissions .plain fun _ => True := fun _ _ _ _ _ _ => JsonText.parse_plain _

theorem writers_run_bob :
    let created := callBy "alice" "db" (.createDb ⟨0, .none⟩)
    let calls := [callBy "alice" "db" (.addWriters [ascii "bob", ascii "carol"]),
      callBy "alice" "db" (.removeWriters [ascii "carol"])]
    WritersRule openConfig (serve openConfig (created :: calls) empty).storage created.request.dbUuid
      (acceptedCalls openConfig calls (serve openConfig [created] empty)) (ascii "bob") := by
  intro created calls
  refine writers_run openConfig (fun _ => True) readsPermissions_plain empty created ⟨0, .none⟩ rfl
    (by decide +kernel) trivial
    calls (fun c hc => ?_) (fun _ _ _ _ => trivial) (fun c hc writers hm name hname heq => ?_) (ascii "bob") (by decide)
  · rcases List.mem_cons.mp hc with rfl | hc
    · exact ⟨rfl, by decide, .inl ⟨_, rfl⟩⟩
    · cases List.mem_singleton.mp hc
      exact ⟨rfl, by decide, .inr ⟨_, rfl⟩⟩
  · rcases List.mem_cons.mp hc with rfl | hc
    · cases hm
      rcases List.mem_cons.mp hname with rfl | hname
      · exact absurd heq (by decide)
      · cases List.mem_singleton.mp hname
        exact absurd heq (by decide)
    · cases List.mem_singleton.mp hc
      cases hm

/-- A name with a blank before it is added, and is no writer; the name of the owner with a
blank after it gets into the list. -/
theorem writer_untrimmed :
    let s := serve openConfig [callBy "alice" "db" (.createDb ⟨0, .none⟩)] empty
    let calls := [callBy "alice" "db" (.addWriters [ascii " bob", ascii "alice "])]
    let perms := permissionsOf 0 0 (ascii "alice") [ascii " bob", ascii "alice "]
    lastMention (ascii " bob") (acceptedCalls openConfig calls s) = some true ∧
      (serve openConfig calls s).storage.read permissionUuid (ascii "db") = some (JsonText.plain.toStyledString perms) ∧
      isCallerAWriter openConfig (ascii " bob") perms = .ok false ∧ isCallerOwner (ascii "alice ") perms =
        .ok true := by
  decide +kernel

end SwarmDb.Crud
