import Chronon.Collections.Table
import Chronon.Executor.Invoke
import Mathlib.Data.String.Basic

/-!
# `chronon-executor/src/registry.rs` and `descriptor.rs`

The scripts of a binary, by name. A descriptor that is registered under a name
replaces the one before it, so of the descriptors that are linked into a binary
the last one of each name counts. `list` is sorted, and it shows all there is to a
registry.

`ScriptRegistry.invokeInner` is `invoke_inner` with its registry, its factory of
contexts and its telemetry events; what it returns is `invokeInner`.
-/

namespace Chronon
set_option autoImplicit false

open Collections

variable {Ctx : Type}

/-- `ScriptDescriptor`. The context of a script is of any type. -/
structure ScriptDescriptor (Ctx : Type) where
  name : String
  invoke : Ctx → Json → Result Unit
  signatureJson : String
  signatureHash : Nat

namespace ScriptDescriptor

def new (name : String) (invoke : Ctx → Json → Result Unit) : ScriptDescriptor Ctx := ⟨name, invoke, "\x7b\x7d", 0⟩

def withSignature (name : String) (invoke : Ctx → Json → Result Unit) (signatureJson : String) (signatureHash : Nat) :
    ScriptDescriptor Ctx := ⟨name, invoke, signatureJson, signatureHash⟩

end ScriptDescriptor

/-- `ScriptRegistry`. What is stored has the fields of the descriptor. -/
abbrev ScriptRegistry (Ctx : Type) := Table (ScriptDescriptor.name : ScriptDescriptor Ctx → String)

namespace ScriptRegistry

def new : ScriptRegistry Ctx := .empty

def register (registry : ScriptRegistry Ctx) (desc : ScriptDescriptor Ctx) : ScriptRegistry Ctx := registry.insert desc

/-- `register_from_inventory`, in the order in which the descriptors have been linked. -/
def registerFromInventory (registry : ScriptRegistry Ctx) (inventory : List (ScriptDescriptor Ctx)) : ScriptRegistry Ctx :=
  inventory.foldl (fun registry desc =>
    registry.register (.withSignature desc.name desc.invoke desc.signatureJson desc.signatureHash)) registry

def fromInventory (inventory : List (ScriptDescriptor Ctx)) : ScriptRegistry Ctx := new.registerFromInventory inventory

def get (registry : ScriptRegistry Ctx) (name : String) : Option (ScriptDescriptor Ctx) := registry.lookup name

def getOrErr (registry : ScriptRegistry Ctx) (name : String) : Result (ScriptDescriptor Ctx) :=
  match registry.get name with
  | some desc => .ok desc
  | none => .error (.scriptNotFound name)

def len (registry : ScriptRegistry Ctx) : Nat := registry.rows.length

def isEmpty (registry : ScriptRegistry Ctx) : Bool := registry.rows.isEmpty

def contains (registry : ScriptRegistry Ctx) (name : String) : Bool := (registry.lookup name).isSome

def list (registry : ScriptRegistry Ctx) : List (ScriptDescriptor Ctx) := registry.rows.insertionSort (·.name ≤ ·.name)

/-- The names of the registered scripts. -/
def names (registry : ScriptRegistry Ctx) : List String := registry.rows.map ScriptDescriptor.name

end ScriptRegistry

/-- The event `chronon_executor_error`. -/
structure ExecutorErrorEvent where
  jobName : String
  runId : String
  scriptName : String
  phase : String
  message : String

/-- `record_executor_error`. -/
def recordExecutorError (request : ExecuteScriptRequest) (phase : String) (err : ChrononError) : ExecutorErrorEvent :=
  ⟨request.jobName, request.runId, request.scriptName, phase, err.toText⟩

/-- `invoke_inner`, with the events it records. -/
def ScriptRegistry.invokeInner (registry : ScriptRegistry Ctx) (build : Json → Result Ctx) (request : ExecuteScriptRequest) :
    Result Unit × List ExecutorErrorEvent :=
  match registry.getOrErr request.scriptName with
  | .error e => (.error e, [recordExecutorError request "registry_lookup" e])
  | .ok desc =>
    match build request.actorJson with
    | .error e => (.error e, [recordExecutorError request "context_build" e])
    | .ok ctx =>
      match desc.invoke ctx request.paramsJson with
      | .error e => (.error (mapInvokeError e), [recordExecutorError request "script_invoke" e])
      | .ok () => (.ok (), [])

namespace ScriptRegistry

variable {registry registry' : ScriptRegistry Ctx} {inventory : List (ScriptDescriptor Ctx)} {name : String}
  {desc : ScriptDescriptor Ctx}

theorem get_register (registry : ScriptRegistry Ctx) (desc : ScriptDescriptor Ctx) (name : String) :
    (registry.register desc).get name = if desc.name = name then some desc else registry.get name :=
  Table.lookup_insert registry desc name

theorem get_eq_some : registry.get name = some desc ↔ desc ∈ registry.rows ∧ desc.name = name := Table.lookup_eq_some

theorem getOrErr_some (found : registry.get name = some desc) : registry.getOrErr name = .ok desc := by
  rw [getOrErr, found]

/-- Of the descriptors of a name, the last one that has been linked is found. -/
theorem get_registerFromInventory (registry : ScriptRegistry Ctx) (inventory : List (ScriptDescriptor Ctx)) (name : String) :
    (registry.registerFromInventory inventory).get name =
      ((inventory.filter (·.name = name)).getLast?).or (registry.get name) := by
  induction inventory generalizing registry with
  | nil => rfl
  | cons desc inventory ih =>
    rw [registerFromInventory, List.foldl_cons]
    refine (ih _).trans ?_
    rw [ScriptDescriptor.withSignature, get_register]
    by_cases same : desc.name = name
    · rw [if_pos same, List.filter_cons, if_pos (decide_eq_true same), List.getLast?_cons]
      cases (inventory.filter (·.name = name)).getLast? <;> rfl
    · rw [if_neg same, List.filter_cons, if_neg (by rwa [decide_eq_true_eq])]

theorem get_fromInventory (inventory : List (ScriptDescriptor Ctx)) (name : String) :
    (fromInventory inventory).get name = (inventory.filter (·.name = name)).getLast? := by
  rw [fromInventory, get_registerFromInventory]
  exact Option.or_none

/-- What has been linked last under its name is what runs. -/
theorem get_of_last {front back : List (ScriptDescriptor Ctx)} (last : ∀ other ∈ back, other.name ≠ desc.name) :
    (fromInventory (front ++ desc :: back)).get desc.name = some desc := by
  have behind : back.filter (·.name = desc.name) = [] :=
    List.filter_eq_nil_iff.mpr fun other inside => by rw [decide_eq_true_eq]; exact last other inside
  rw [get_fromInventory, List.filter_append, List.filter_cons, if_pos (decide_eq_true rfl), behind, List.getLast?_append]
  rfl

/-- With one descriptor of each name, every one of them is found. -/
theorem get_of_mem (unique : (inventory.map ScriptDescriptor.name).Nodup) (linked : desc ∈ inventory) :
    (fromInventory inventory).get desc.name = some desc := by
  obtain ⟨front, back, rfl⟩ := List.append_of_mem linked
  rw [List.map_append, List.map_cons, List.nodup_append, List.nodup_cons] at unique
  exact get_of_last fun other inside same => unique.2.1.1 (List.mem_map.mpr ⟨other, inside, same⟩)

/-! ## `list` -/

theorem mem_list : desc ∈ registry.list ↔ registry.get desc.name = some desc := by
  rw [list, List.mem_insertionSort, get_eq_some, and_iff_left rfl]

/-- The names in a list increase strictly. -/
theorem list_sorted (registry : ScriptRegistry Ctx) : registry.list.Pairwise (·.name < ·.name) := by
  have ordered : registry.list.Pairwise (·.name ≤ ·.name) := List.pairwise_insertionSort (·.name ≤ ·.name) registry.rows
  have distinct : registry.list.Pairwise (·.name ≠ ·.name) := by
    rw [← List.pairwise_map]
    exact (((List.perm_insertionSort _ registry.rows).map ScriptDescriptor.name).nodup_iff).mpr registry.distinct
  exact (ordered.and distinct).imp fun both => lt_of_le_of_ne both.1 both.2

/-- Two registries list the same when each name stands for the same. -/
theorem list_eq_iff : registry.list = registry'.list ↔ ∀ name, registry.get name = registry'.get name := by
  constructor
  · intro same name
    refine Option.ext fun desc => ?_
    constructor
    · intro found
      obtain rfl := (get_eq_some.mp found).2
      rwa [← mem_list, ← same, mem_list]
    · intro found
      obtain rfl := (get_eq_some.mp found).2
      rwa [← mem_list, same, mem_list]
  · intro same
    have nodup (registry : ScriptRegistry Ctx) : registry.list.Nodup :=
      (list_sorted registry).imp fun less equal => absurd less (by rw [equal]; exact lt_irrefl _)
    have perm : registry.list.Perm registry'.list :=
      (List.perm_ext_iff_of_nodup (nodup registry) (nodup registry')).mpr fun desc => by rw [mem_list, mem_list, same]
    exact perm.eq_of_pairwise (fun a b _ _ less more => absurd less (lt_asymm more)) (list_sorted registry)
      (list_sorted registry')

theorem contains_iff : registry.contains name = true ↔ name ∈ registry.names := by
  rw [contains, Option.isSome_iff_exists, names, List.mem_map]
  exact exists_congr fun desc => Table.lookup_eq_some

/-- With one script for each name, the order of linking does not matter. -/
theorem list_perm {linked : List (ScriptDescriptor Ctx)} (perm : linked.Perm inventory)
    (unique : ∀ desc ∈ inventory, ∀ desc' ∈ inventory, desc.name = desc'.name → desc = desc') :
    (fromInventory linked).list = (fromInventory inventory).list := by
  refine list_eq_iff.mpr fun name => ?_
  rw [get_fromInventory, get_fromInventory]
  -- all descriptors of a name are the same one, so it does not matter which of them is the last
  have last {l : List (ScriptDescriptor Ctx)} (isLinked : l ⊆ inventory) (desc : ScriptDescriptor Ctx) :
      (l.filter (·.name = name)).getLast? = some desc ↔ desc ∈ l ∧ desc.name = name := by
    constructor
    · intro isLast
      have inside := List.mem_of_getLast? isLast
      rwa [List.mem_filter, decide_eq_true_eq] at inside
    · rintro ⟨inside, isName⟩
      have nonempty : l.filter (·.name = name) ≠ [] :=
        List.ne_nil_of_mem (List.mem_filter.mpr ⟨inside, decide_eq_true isName⟩)
      have isLast := List.getLast_mem nonempty
      rw [List.mem_filter, decide_eq_true_eq] at isLast
      rw [List.getLast?_eq_some_getLast nonempty,
        unique _ (isLinked isLast.1) desc (isLinked inside) (isLast.2.trans isName.symm)]
  refine Option.ext fun desc => ?_
  rw [last perm.subset, last (List.Subset.refl inventory), perm.mem_iff]

/-- **The order of linking matters exactly when two different scripts have the same name**, and then the last one that
has been linked is found. -/
theorem link_order_matters_not (inventory : List (ScriptDescriptor Ctx)) :
    ((∀ linked, linked.Perm inventory → (fromInventory linked).list = (fromInventory inventory).list) ↔
      ∀ desc ∈ inventory, ∀ desc' ∈ inventory, desc.name = desc'.name → desc = desc') ∧
    ∀ name, (fromInventory inventory).get name = (inventory.filter (·.name = name)).getLast? := by
  refine ⟨⟨fun same desc inside desc' inside' name => ?_, fun unique linked perm => list_perm perm unique⟩,
    get_fromInventory inventory⟩
  -- each of the two is found once it has been linked last
  have found {last : ScriptDescriptor Ctx} (isLinked : last ∈ inventory) :
      (fromInventory inventory).get last.name = some last := by
    obtain ⟨front, back, rfl⟩ := List.append_of_mem isLinked
    have behind : (back ++ [last]).Perm (last :: back) := List.perm_append_singleton last back
    have perm : (front ++ back ++ [last]).Perm (front ++ last :: back) := by
      rw [List.append_assoc]
      exact behind.append_left front
    rw [← list_eq_iff.mp (same _ perm) last.name]
    exact get_of_last fun _ isNone => absurd isNone List.not_mem_nil
  exact Option.some.inj ((found inside).symm.trans (name ▸ found inside'))

/-- What `invoke_inner` returns, given how the context build and the handler end. -/
theorem invokeInner_result (build : Json → Result Ctx) (request : ExecuteScriptRequest) {context handler : Result Unit}
    (isContext : context = (build request.actorJson).map fun _ => ())
    (isHandler : ∀ desc ctx, registry.get request.scriptName = some desc → build request.actorJson = .ok ctx →
      handler = desc.invoke ctx request.paramsJson) :
    (registry.invokeInner build request).1 = Chronon.invokeInner registry.names request.scriptName context handler := by
  subst isContext
  unfold invokeInner Chronon.invokeInner getOrErr
  cases found : registry.get request.scriptName with
  | none =>
    have absent : registry.names.contains request.scriptName = false := by
      rw [← Bool.not_eq_true, List.contains_iff_mem, ← contains_iff, contains, ← get, found]
      exact Bool.noConfusion
    rw [absent]
    rfl
  | some desc =>
    have present : registry.names.contains request.scriptName = true := by
      rw [List.contains_iff_mem, ← contains_iff, contains, ← get, found]
      rfl
    rw [if_pos present]
    cases built : build request.actorJson with
    | error e => rfl
    | ok ctx =>
      rw [isHandler desc ctx found built]
      simp only [Except.map]
      cases desc.invoke ctx request.paramsJson <;> rfl

end ScriptRegistry

end Chronon
