import Chronon.Macros.Accepted
import Chronon.Runs.Work

/-!
# From a typed handle to the call of the script

The closure that the macro generates reads the parameters by the names of the
function's arguments, or by their positions in an array, and calls the function with
them in order. So what is given to a handle when a job is made is what the script is
called with, by every execution of a run of that job, when the code of the parameters'
types reads back what it writes.
-/

namespace Chronon.Macros
set_option autoImplicit false

open Concurrent

variable {c : Compiler} {sig : Signature} {serde : Serde SynType} {e : Expansion} {T V : Type}

/-! ## How arguments are read -/

/-- The arguments that the closure reads from JSON. -/
inductive Expansion.Takes (e : Expansion) (serde : Serde SynType) : Json → List serde.Value → Prop
  | unitNull : e.params = [] → Takes e serde .null []
  | unitObject : e.params = [] → Takes e serde (.obj []) []
  | byName {entries : List (String × Json)} {args : List serde.Value} : e.params ≠ [] →
      List.Forall₂ (fun field arg => serde.ReadsField entries field.1 field.2 arg) e.fields args →
      Takes e serde (.obj entries) args
  | byPosition {items : List Json} {args : List serde.Value} : e.params ≠ [] → items.length = e.fields.length →
      List.Forall₂ (fun read arg => serde.value read.1.2 read.2 = .ok arg) (e.fields.zip items) args →
      Takes e serde (.arr items) args

/-- Every value of a list with distinct names is found, in the order of the list. -/
theorem filterMap_lookup {values : List (String × V)} (distinct : (values.map Prod.fst).Nodup) :
    (values.map Prod.fst).filterMap (fun name => values.lookup name) = values.map Prod.snd := by
  rw [List.filterMap_map, ← List.filterMap_eq_map]
  exact List.filterMap_congr fun v inside => Serde.lookup_of_mem distinct inside

theorem fields_expansionOf (scriptName : String) (params : List (String × SynType)) :
    (expansionOf c scriptName sig params).fields = params.map fun p => (unraw p.1, p.2) := by
  rw [Expansion.fields, expansionOf, List.filterMap_map]
  exact List.filterMap_eq_map.symm ▸ rfl

/-- A struct that has been read passes its fields on. -/
theorem accessors_read {scriptName : String} {params : List (String × SynType)} {values : List (String × serde.Value)}
    (isExpansion : e = expansionOf c scriptName sig params) (compiles : (e.fields.map Prod.fst).Nodup)
    (names : values.map Prod.fst = e.fields.map Prod.fst) :
    (e.accessors.filterMap fun ident => values.lookup (unraw ident)) = values.map Prod.snd := by
  have isNames : values.map Prod.fst = e.accessors.map unraw := by
    rw [names, isExpansion, fields_expansionOf, expansionOf, List.map_map, List.map_map]
    rfl
  rw [← filterMap_lookup (by rwa [names]), isNames, List.filterMap_map]
  rfl

/-- A struct is its names and its values. -/
theorem forall₂_names {R : String × T → V → Prop} {fields : List (String × T)} {values : List (String × V)} :
    List.Forall₂ (fun field v => v.1 = field.1 ∧ R field v.2) fields values ↔
      values.map Prod.fst = fields.map Prod.fst ∧ List.Forall₂ R fields (values.map Prod.snd) := by
  induction fields generalizing values with
  | nil => cases values <;> simp
  | cons field fields ih =>
    cases values with
    | nil => simp
    | cons v values =>
      simp only [List.forall₂_cons, List.map_cons, List.cons.injEq, ih]
      tauto

/-- Reading an array takes each item at its position. -/
theorem visitSeq_ok {expecting : String} {seen : Nat} {fields : List (String × T)} {serde : Serde T} {items : List Json}
    {values : List (String × serde.Value)} : serde.visitSeq expecting seen fields items = .ok values ↔
      values.map Prod.fst = fields.map Prod.fst ∧ items.length = fields.length ∧
        List.Forall₂ (fun read arg => serde.value read.1.2 read.2 = .ok arg) (fields.zip items) (values.map Prod.snd) := by
  induction fields generalizing seen items values with
  | nil =>
    cases items with
    | nil =>
      rw [Serde.visitSeq]
      constructor
      · intro same
        cases same
        exact ⟨rfl, rfl, .nil⟩
      · rintro ⟨names, -, -⟩
        rw [List.map_eq_nil_iff.mp names]
    | cons item items => exact ⟨nofun, fun ⟨_, short, _⟩ => absurd short nofun⟩
  | cons field fields ih =>
    obtain ⟨name, ty⟩ := field
    cases items with
    | nil => exact ⟨nofun, fun ⟨_, short, _⟩ => absurd short nofun⟩
    | cons item items =>
      rw [Serde.visitSeq, Serde.bind_ok]
      constructor
      · rintro ⟨v, isValue, rest⟩
        obtain ⟨others, isOthers, same⟩ := Serde.bind_ok.mp rest
        cases same
        obtain ⟨names, long, reads⟩ := ih.mp isOthers
        exact ⟨congrArg _ names, congrArg _ long, .cons isValue reads⟩
      · rintro ⟨names, long, reads⟩
        cases values with
        | nil => cases names
        | cons v values =>
          obtain ⟨name', v⟩ := v
          obtain ⟨same, names'⟩ := List.cons.inj names
          obtain rfl : name' = name := same
          obtain ⟨isValue, reads'⟩ := List.forall₂_cons.mp reads
          exact ⟨v, isValue, Serde.bind_ok.mpr ⟨values, ih.mpr ⟨names', Nat.succ.inj long, reads'⟩, rfl⟩⟩

/-- A struct that deserializes has the names of its fields, and the values that the JSON gives them. -/
theorem deserializeStruct_ok {name : String} {fields : List (String × T)} {serde : Serde T} {json : Json}
    {values : List (String × serde.Value)} (names : (fields.map Prod.fst).Nodup)
    (distinct : ∀ entries, json = .obj entries → (entries.map Prod.fst).Nodup) :
    serde.deserializeStruct name fields json = .ok values ↔ values.map Prod.fst = fields.map Prod.fst ∧
      ((∃ entries, json = .obj entries ∧
          List.Forall₂ (fun field arg => serde.ReadsField entries field.1 field.2 arg) fields (values.map Prod.snd)) ∨
        ∃ items, json = .arr items ∧ items.length = fields.length ∧
          List.Forall₂ (fun read arg => serde.value read.1.2 read.2 = .ok arg) (fields.zip items) (values.map Prod.snd)) := by
  cases json with
  | obj entries =>
    rw [Serde.deserializeStruct, Serde.visitMap_ok names (distinct entries rfl), Serde.Reads, forall₂_names]
    constructor
    · rintro ⟨isNames, reads⟩
      exact ⟨isNames, .inl ⟨entries, rfl, reads⟩⟩
    · rintro ⟨isNames, ⟨entries', same, reads⟩ | ⟨items, same, -⟩⟩
      · cases same
        exact ⟨isNames, reads⟩
      · cases same
  | arr items =>
    rw [Serde.deserializeStruct, visitSeq_ok]
    constructor
    · rintro ⟨isNames, reads⟩
      exact ⟨isNames, .inr ⟨items, rfl, reads⟩⟩
    · rintro ⟨isNames, ⟨entries, same, -⟩ | ⟨items', same, reads⟩⟩
      · cases same
      · cases same
        exact ⟨isNames, reads⟩
  | null | bool | posInt | negInt | float | str =>
    constructor
    · intro read
      cases read
    · rintro ⟨-, ⟨entries, same, -⟩ | ⟨items, same, -⟩⟩ <;> cases same

/-- The unit struct is read from `null` and from an empty object. -/
theorem arguments_unit (isUnit : e.params = []) {json : Json} {args : List serde.Value} :
    e.arguments serde json = .ok args ↔ args = [] ∧ (json = .null ∨ json = .obj []) := by
  have unit : e.isUnitStruct = true := by
    rw [Expansion.isUnitStruct, isUnit]
    rfl
  have read (isNull : Expansion.unitJson json = .null) : e.arguments serde json = .ok [] := by
    rw [Expansion.arguments, if_pos unit, isNull]
    rfl
  have empty (isNull : Expansion.unitJson json = .null) : e.arguments serde json = .ok args ↔ args = [] := by
    rw [read isNull]
    exact ⟨fun same => (Except.ok.inj same).symm, fun same => by rw [same]⟩
  cases json with
  | null => rw [empty rfl, and_iff_left (.inl rfl)]
  | obj entries =>
    cases entries with
    | nil => rw [empty rfl, and_iff_left (.inr rfl)]
    | cons entry entries =>
      rw [Expansion.arguments, if_pos unit]
      refine iff_of_false nofun ?_
      rintro ⟨-, same | same⟩ <;> cases same
  | bool | posInt | negInt | float | str | arr =>
    rw [Expansion.arguments, if_pos unit]
    refine iff_of_false nofun ?_
    rintro ⟨-, same | same⟩ <;> cases same

/-- The closure that is not of a unit struct reads the struct. -/
theorem arguments_struct {scriptName : String} {params : List (String × SynType)}
    (isExpansion : e = expansionOf c scriptName sig params) (compiles : (e.fields.map Prod.fst).Nodup)
    (hasFields : e.params ≠ []) {json : Json} (distinct : ∀ entries, json = .obj entries → (entries.map Prod.fst).Nodup)
    {args : List serde.Value} : e.arguments serde json = .ok args ↔
      ∃ values, serde.deserializeStruct e.paramsStructName e.fields json = .ok values ∧ args = values.map Prod.snd := by
  have notUnit : ¬ e.isUnitStruct = true := by rwa [Expansion.isUnitStruct, List.isEmpty_iff]
  rw [Expansion.arguments, if_neg notUnit]
  cases reads : serde.deserializeStruct e.paramsStructName e.fields json with
  | error text => exact ⟨nofun, nofun⟩
  | ok values =>
    have passed := accessors_read isExpansion compiles ((deserializeStruct_ok compiles distinct).mp reads).1
    simp only [passed]
    constructor
    · exact fun same => ⟨values, rfl, (Except.ok.inj same).symm⟩
    · rintro ⟨values', same, rfl⟩
      cases same
      rfl

/-- **What a script is called with**: by an object, each argument is read from the entry of its name, whatever the order
of the entries and whichever others there are; by an array, each item is one argument; a script without parameters is called
for `null` and for an empty object. Nothing else calls it. -/
theorem script_called_iff {attr : List AttrToken} (accepted : scriptImpl c attr sig = .ok e)
    (compiles : (e.fields.map Prod.fst).Nodup) {json : Json}
    (distinct : ∀ entries, json = .obj entries → (entries.map Prod.fst).Nodup) (args : List serde.Value) :
    e.arguments serde json = .ok args ↔ e.Takes serde json args := by
  obtain ⟨scriptName, params, -, -, -, isExpansion⟩ := (script_accepted_iff c attr sig e).mp accepted
  by_cases isUnit : e.params = []
  · rw [arguments_unit isUnit]
    constructor
    · rintro ⟨rfl, rfl | rfl⟩
      · exact .unitNull isUnit
      · exact .unitObject isUnit
    · intro takes
      cases takes with
      | unitNull => exact ⟨rfl, .inl rfl⟩
      | unitObject => exact ⟨rfl, .inr rfl⟩
      | byName hasFields => exact absurd isUnit hasFields
      | byPosition hasFields => exact absurd isUnit hasFields
  · rw [arguments_struct isExpansion compiles isUnit distinct]
    constructor
    · rintro ⟨values, deserializes, rfl⟩
      obtain ⟨-, ⟨entries, rfl, reads⟩ | ⟨items, rfl, long, reads⟩⟩ :=
        (deserializeStruct_ok compiles distinct).mp deserializes
      · exact .byName isUnit reads
      · exact .byPosition isUnit long reads
    · intro takes
      -- the struct with these values
      have named (long : args.length = e.fields.length) :
          ((e.fields.map Prod.fst).zip args).map Prod.fst = e.fields.map Prod.fst ∧
            ((e.fields.map Prod.fst).zip args).map Prod.snd = args :=
        ⟨List.map_fst_zip (by rw [List.length_map, long]), List.map_snd_zip (by rw [List.length_map, long])⟩
      cases takes with
      | unitNull isUnit' => exact absurd isUnit' isUnit
      | unitObject isUnit' => exact absurd isUnit' isUnit
      | byName _ reads =>
        obtain ⟨isNames, isArgs⟩ := named reads.length_eq.symm
        exact ⟨_, (deserializeStruct_ok compiles distinct).mpr ⟨isNames, .inl ⟨_, rfl, by rwa [isArgs]⟩⟩, isArgs.symm⟩
      | byPosition _ long reads =>
        obtain ⟨isNames, isArgs⟩ := named (by rw [← reads.length_eq, List.length_zip, long, Nat.min_self])
        exact ⟨_, (deserializeStruct_ok compiles distinct).mpr ⟨isNames, .inr ⟨_, rfl, long, by rwa [isArgs]⟩⟩, isArgs.symm⟩

/-- Every type is `u32`. -/
def Serde.unsigned : Serde SynType where
  Val _ := { n : Nat // n ≤ 4294967295 }
  serialize _ n := .ok (.posInt n.1)
  deserialize _ json :=
    match json with
    | .posInt n => if small : n ≤ 4294967295 then .ok ⟨n, small⟩ else .error "invalid value"
    | _ => .error "invalid type"
  missing _ name := .error ("missing field `" ++ name ++ "`")
  invalidType _ expected := "invalid type: expected " ++ expected
  invalidLength n expected := "invalid length " ++ toString n ++ ", expected " ++ expected

theorem Serde.unsigned_roundTrip (ty : SynType) : Serde.unsigned.RoundTrips ty := by
  rintro ⟨n, small⟩ json written
  cases written
  exact dif_pos small

/-- A script of two numbers. -/
def cleanupExpansion : Expansion :=
  expansionOf .simple "cleanup" (scriptFn "cleanup" [("keep", plainType "u32"), ("batch", plainType "u32")])
    [("keep", plainType "u32"), ("batch", plainType "u32")]

theorem cleanup_accepted : scriptImpl .simple [.ident "name", .equals, .literal "cleanup"]
    (scriptFn "cleanup" [("keep", plainType "u32"), ("batch", plainType "u32")]) = .ok cleanupExpansion :=
  scriptFn_accepted .simple "cleanup" "cleanup" _ (by unfold Expansion.NamesFit; decide +kernel)

theorem cleanup_fields : cleanupExpansion.fields = [("keep", plainType "u32"), ("batch", plainType "u32")] := rfl

/-- The entries are in another order, and one of them is no parameter. -/
theorem script_called_reordered : cleanupExpansion.arguments .unsigned
    (.obj [("batch", .posInt 500), ("comment", .null), ("keep", .posInt 7)]) =
      .ok [⟨plainType "u32", 7, by decide⟩, ⟨plainType "u32", 500, by decide⟩] := by
  refine (script_called_iff cleanup_accepted ?_ ?_ _).mpr (.byName (by decide) ?_)
  · rw [cleanup_fields]
    decide
  · intro entries same
    cases same
    decide
  · exact .cons rfl (.cons rfl .nil)

/-! ## What is given to a handle -/

/-- Fields are their names and the types of their values. -/
theorem zip_fields {type : V → T} {fields : List (String × T)} {args : List V} (types : args.map type = fields.map Prod.snd) :
    ((fields.map Prod.fst).zip args).map (fun v => (v.1, type v.2)) = fields := by
  induction fields generalizing args with
  | nil => rfl
  | cons field fields ih =>
    cases args with
    | nil => cases types
    | cons arg args =>
      obtain ⟨same, types'⟩ := List.cons.inj types
      rw [List.map_cons, List.zip_cons_cons, List.map_cons, ih types', same]

/-- The closure reads back the struct that has been serialized. -/
theorem arguments_toValue {scriptName : String} {parameters : List (String × SynType)}
    (isExpansion : e = expansionOf c scriptName sig parameters) (compiles : (e.fields.map Prod.fst).Nodup)
    (roundTrip : ∀ field ∈ e.fields, serde.RoundTrips field.2) (params : e.Params serde) {json : Json}
    (written : Expansion.toValue params = .ok json) : e.arguments serde json = .ok params.1 := by
  obtain ⟨args, types⟩ := params
  by_cases isUnit : e.params = []
  · rw [Expansion.toValue, if_pos (by rw [Expansion.isUnitStruct, isUnit]; rfl)] at written
    cases written
    refine (arguments_unit isUnit).mpr ⟨?_, .inl rfl⟩
    rw [Expansion.fields, isUnit] at types
    exact List.map_eq_nil_iff.mp types
  · rw [Expansion.toValue, if_neg (by rwa [Expansion.isUnitStruct, List.isEmpty_iff])] at written
    have long : args.length = e.fields.length := by
      have lengths := congrArg List.length types
      rwa [List.length_map, List.length_map] at lengths
    have isFields : Serde.fieldsOf ((e.fields.map Prod.fst).zip args) = e.fields := zip_fields types
    have names : ((e.fields.map Prod.fst).zip args).map Prod.fst = e.fields.map Prod.fst :=
      List.map_fst_zip (by rw [List.length_map, long])
    have reads := Serde.deserialize_serialize e.paramsStructName (by rwa [names]) (by rwa [isFields]) written
    rw [isFields] at reads
    have distinct : ∀ entries, json = .obj entries → (entries.map Prod.fst).Nodup := by
      rintro entries rfl
      obtain ⟨map, -, same⟩ := Serde.map_ok.mp written
      cases same
      exact map.keys_nodup
    exact (arguments_struct isExpansion compiles isUnit distinct).mpr
      ⟨_, reads, (List.map_snd_zip (by rw [List.length_map, long])).symm⟩

/-- A job that a handle makes carries the name of the script and the serialized parameters. -/
theorem jobWithParams_ok {handle : ScriptHandle} {jobId : String} {now : DateTime} {jobName : String}
    {params : Except String Json} {job : Job} (built : handle.jobWithParams jobId now jobName params = .ok job) :
    job.scriptName = handle.name ∧ params = .ok job.paramsJson := by
  unfold ScriptHandle.jobWithParams at built
  split at built
  · cases built
  · cases built
    exact ⟨rfl, rfl⟩

/-- **Typed parameters arrive.** A job is made from the handle of a script that is linked under a name of its own. In every run
of any tasks, each execution of a run that was created with that job's script and parameters, and of its retries, calls the
script with the values the handle was given, in order, when the context can be built. -/
theorem typed_params_arrive (host : Host) {s : State} {config : SystemConfig}
    (reach : (system host).Reach (fun _ _ _ => True) (.idle (.fresh s)) config)
    {attr : List AttrToken} (accepted : scriptImpl c attr sig = .ok e) (compiles : (e.fields.map Prod.fst).Nodup)
    (roundTrip : ∀ field ∈ e.fields, serde.RoundTrips field.2)
    {Ctx : Type} {impl : Ctx → List serde.Value → Result Unit} {inventory : List (ScriptDescriptor Ctx)}
    (linked : e.descriptor serde impl ∈ inventory) (unique : (inventory.map ScriptDescriptor.name).Nodup)
    {params : e.Params serde} {jobId : String} {now : DateTime} {jobName : String} {job : Job}
    (built : e.handle.jobWithParams jobId now jobName (Expansion.toValue params) = .ok job)
    {id : String} {first : Run} (created : createdAs s id config.world.log = some first)
    (ofJob : first.scriptName = job.scriptName ∧ first.paramsJson = job.paramsJson)
    {entry : LogEntry} (logged : entry ∈ config.world.log) {request : ExecuteScriptRequest}
    (executes : request ∈ executed entry) (chain : Chain config.world.log id request.runId) (build : Json → Result Ctx) :
    ((ScriptRegistry.fromInventory inventory).invokeInner build request).1 =
      build first.actorJson >>= fun ctx => (impl ctx params.1).mapError mapInvokeError := by
  obtain ⟨scriptName, parameters, -, -, -, isExpansion⟩ := (script_accepted_iff c attr sig e).mp accepted
  obtain ⟨isScript, isParams⟩ := jobWithParams_ok built
  -- the request has the payload of the first run of its chain
  have standing := work_reachable host reach
  obtain ⟨last, isLast, payload⟩ := standing.inv.chain created chain
  obtain ⟨last', isLast', uses⟩ := standing.inv.executed entry logged request executes
  rw [isLast] at isLast'
  cases isLast'
  simp only [Run.payload, Payload.mk.injEq] at payload
  obtain ⟨-, sameScript, sameActor, sameParams, -⟩ := payload
  have script : request.scriptName = (e.descriptor serde impl).name :=
    uses.scriptName.trans (sameScript.trans (ofJob.1.trans isScript))
  have json : request.paramsJson = job.paramsJson := uses.paramsJson.trans (sameParams.trans ofJob.2)
  have actor : request.actorJson = first.actorJson := uses.actorJson.trans sameActor
  have found := ScriptRegistry.getOrErr_some (ScriptRegistry.get_of_mem unique linked)
  have reads := arguments_toValue isExpansion compiles roundTrip params isParams
  rw [ScriptRegistry.invokeInner, script, found, actor]
  cases build first.actorJson with
  | error err => rfl
  | ok ctx =>
    have calls : (e.descriptor serde impl).invoke ctx request.paramsJson = impl ctx params.1 := by
      rw [json]
      exact (congrArg (· >>= impl ctx) reads).trans rfl
    simp only [calls]
    change _ = (impl ctx params.1).mapError mapInvokeError
    cases impl ctx params.1 <;> rfl

/-- What its handle is given. -/
def cleanupParams : cleanupExpansion.Params Serde.unsigned :=
  ⟨[⟨plainType "u32", 7, by decide⟩, ⟨plainType "u32", 500, by decide⟩], rfl⟩

def cleanupJson : Json := .obj [("batch", .posInt 500), ("keep", .posInt 7)]

theorem cleanup_toValue : Expansion.toValue cleanupParams = .ok cleanupJson := by
  have less : "batch" < "keep" := by decide +kernel
  change Except.ok (Json.obj (Collections.OrderedMap.put "batch" (.posInt 500) [("keep", .posInt 7)])) = _
  rw [Collections.OrderedMap.put, if_pos less]
  rfl

/-- The minutely job of a typed handle, with a retry, at its first fire. -/
def typedAtFire : State :=
  .single { minutelyJob.setRetryPolicy ⟨1, 0, 1, 0⟩ with scriptName := "cleanup", paramsJson := cleanupJson } (seconds 60)

/-- Its script, which succeeds with these arguments only. -/
def cleanupImpl (_ : Unit) (args : List (Serde.unsigned.Value)) : Result Unit :=
  if args.map (fun arg => arg.2.1) = [7, 500] then .ok () else .error (.internal "other arguments")

/-- A run has the script and the parameters of that job. -/
def carriesCleanup (run : Run) : Bool :=
  run.scriptName == "cleanup" && match run.paramsJson with
    | .obj [("batch", .posInt 500), ("keep", .posInt 7)] => true
    | _ => false

theorem carriesCleanup_params {run : Run} (carries : carriesCleanup run = true) :
    run.scriptName = "cleanup" ∧ run.paramsJson = cleanupJson := by
  rw [carriesCleanup, Bool.and_eq_true, beq_iff_eq] at carries
  refine ⟨carries.1, ?_⟩
  have same := carries.2
  split at same
  · assumption
  · exact absurd same Bool.false_ne_true

/-- A run fails and its retry executes: it is called with the values the job was made with. -/
theorem typed_params_arrive_retry :
    ∃ config, (system .simple).Reach (fun _ _ _ => True) (.idle (.fresh typedAtFire)) config ∧
      ∃ entry ∈ config.world.log, ∃ request ∈ executed entry, request.runId = "r2" ∧
        ((ScriptRegistry.fromInventory [cleanupExpansion.descriptor .unsigned cleanupImpl]).invokeInner
          (fun _ => .ok ()) request).1 = .ok () := by
  obtain ⟨config, reach, ends⟩ := exists_run .simple (fun _ _ _ => True) typedAtFire
    (startTick 0 "c" false ++ claimNext 0 "t" ++ enqueueRest 0 "r" ++ startSlot 1 "a" ++ calls 1 3 ++ failScript 1 "r2" ++
      startSlot 1 "a" ++ calls 1 3 ++ runScript 1 (.error (.internal "boom")))
    (fun config => (config.world.log.any fun entry => (executed entry).any (·.runId = "r2")) &&
      (createdAs typedAtFire "r" config.world.log).any carriesCleanup &&
      (retriesOf "r" config.world.log).map Run.runId == ["r2"]) (by decide +kernel)
  simp only [Bool.and_eq_true, beq_iff_eq, List.any_eq_true, Option.any_eq_true, decide_eq_true_eq] at ends
  obtain ⟨⟨⟨entry, logged, request, executes, isRetry⟩, first, created, carries⟩, retried⟩ := ends
  obtain ⟨run, inside, isRun⟩ := List.mem_map.mp (by rw [retried]; exact List.mem_singleton_self "r2")
  have chain : Chain config.world.log "r" request.runId := isRetry ▸ isRun ▸ .retry .first inside
  have built : cleanupExpansion.handle.jobWithParams "j" 0 "cleanup-job" (Expansion.toValue cleanupParams) =
      .ok { Job.new "j" 0 "cleanup-job" "cleanup" with paramsJson := cleanupJson } := by
    rw [cleanup_toValue]
    rfl
  refine ⟨config, reach, entry, logged, request, executes, isRetry, ?_⟩
  have arrives := typed_params_arrive .simple reach cleanup_accepted (by rw [cleanup_fields]; decide)
    (fun field _ => Serde.unsigned_roundTrip field.2)
    (List.mem_singleton_self (cleanupExpansion.descriptor .unsigned cleanupImpl)) (List.nodup_singleton _)
    built created (carriesCleanup_params carries) logged executes chain (fun _ => .ok ())
  exact arrives.trans rfl

end Chronon.Macros
