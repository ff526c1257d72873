import Mathlib

/-!
# JSON values that are rewritten in place

Values as a parser builds them, objects as association lists in key order. A loop that
changes the elements of an array while it checks them and collects results is split into
what it checks, which may fail, and what it writes, which is a map.
-/
namespace NScale.Json

/-- A number is kept as its text. -/
inductive Value
  | null
  | bool (b : Bool)
  | number (text : String)
  | string (s : String)
  | array (items : List Value)
  | object (fields : List (String × Value))
  deriving Repr

abbrev Object := List (String × Value)

namespace Value

def asStr : Value → Option String
  | .string s => some s
  | _ => none

def asArray : Value → Option (List Value)
  | .array items => some items
  | _ => none

def asObject : Value → Option Object
  | .object fields => some fields
  | _ => none

@[simp] lemma asArray_array (items : List Value) : (Value.array items).asArray = some items := rfl

lemma asStr_eq_some {v : Value} {s : String} : v.asStr = some s ↔ v = .string s := by
  cases v <;> simp [asStr]

end Value

section Fields

def get (obj : Object) (name : String) : Option Value := obj.lookup name

/-- Write through `get_mut`: an absent field stays absent. -/
def set (obj : Object) (name : String) (v : Value) : Object :=
  obj.map fun (key, old) => if key = name then (key, v) else (key, old)

/-- A new field goes before the first greater key. -/
def insertField (name : String) (v : Value) : Object → Object
  | [] => [(name, v)]
  | (key, old) :: rest =>
      if name < key then (name, v) :: (key, old) :: rest
      else (key, old) :: insertField name v rest

/-- `entry(name).or_insert(v)`. -/
def orInsert (obj : Object) (name : String) (v : Value) : Object :=
  if (get obj name).isSome then obj else insertField name v obj

variable {obj : Object} {name other : String} {v w : Value}

lemma get_cons (key : String) (old : Value) (rest : Object) (name : String) :
    get ((key, old) :: rest) name = if key = name then some old else get rest name := by
  by_cases h : key = name
  · simp [get, h]
  · have apart : (name == key) = false := by simpa using Ne.symm h
    simp [get, h, List.lookup_cons, apart]

lemma set_cons (key : String) (old : Value) (rest : Object) (name : String) (v : Value) :
    set ((key, old) :: rest) name v =
      (key, if key = name then v else old) :: set rest name v := by
  by_cases h : key = name <;> simp [set, h]

lemma get_set_self (obj : Object) (name : String) (v : Value) :
    get (set obj name v) name = (get obj name).map fun _ => v := by
  induction obj with
  | nil => rfl
  | cons field rest ih =>
    obtain ⟨key, old⟩ := field
    by_cases h : key = name <;> simp [set_cons, get_cons, h, ih]

lemma get_set_other (apart : other ≠ name) (obj : Object) (v : Value) :
    get (set obj name v) other = get obj other := by
  induction obj with
  | nil => rfl
  | cons field rest ih =>
    obtain ⟨key, old⟩ := field
    by_cases h : key = other
    · have unset : key ≠ name := h ▸ apart
      simp [set_cons, get_cons, h, h ▸ unset]
    · simp [set_cons, get_cons, h, ih]

lemma set_set (obj : Object) (name : String) (v w : Value) :
    set (set obj name v) name w = set obj name w := by
  induction obj with
  | nil => rfl
  | cons field rest ih =>
    obtain ⟨key, old⟩ := field
    by_cases h : key = name <;> simp [set_cons, h, ih]

lemma set_comm (apart : other ≠ name) (obj : Object) (v w : Value) :
    set (set obj name v) other w = set (set obj other w) name v := by
  induction obj with
  | nil => rfl
  | cons field rest ih =>
    obtain ⟨key, old⟩ := field
    by_cases h : key = name
    · subst h
      simp [set_cons, ih, apart.symm]
    · simp [set_cons, ih, h]

lemma get_insertField_self (absent : get obj name = none) (v : Value) :
    get (insertField name v obj) name = some v := by
  induction obj with
  | nil => simp [insertField, get]
  | cons field rest ih =>
    obtain ⟨key, old⟩ := field
    by_cases h : key = name
    · simp [get_cons, h] at absent
    · have absent' : get rest name = none := by simpa [get_cons, h] using absent
      by_cases lt : name < key
      · simp [insertField, lt, get_cons]
      · simp [insertField, lt, get_cons, h, ih absent']

lemma get_insertField_other (apart : other ≠ name) (obj : Object) (v : Value) :
    get (insertField name v obj) other = get obj other := by
  induction obj with
  | nil => simp [insertField, get_cons, apart.symm]
  | cons field rest ih =>
    obtain ⟨key, old⟩ := field
    by_cases lt : name < key
    · simp [insertField, lt, get_cons, apart.symm]
    · by_cases h : key = other
      · subst h
        simp [insertField, lt, get_cons]
      · simp [insertField, lt, get_cons, h, ih]

lemma get_orInsert_self (obj : Object) (name : String) (v : Value) :
    get (orInsert obj name v) name = some ((get obj name).getD v) := by
  unfold orInsert
  cases h : get obj name with
  | none => simp [get_insertField_self h]
  | some w => simp [h]

lemma get_orInsert_other (apart : other ≠ name) (obj : Object) (v : Value) :
    get (orInsert obj name v) other = get obj other := by
  unfold orInsert
  split
  · rfl
  · exact get_insertField_other apart obj v

lemma orInsert_of_some (present : get obj name = some w) (v : Value) : orInsert obj name v = obj := by
  simp [orInsert, present]

end Fields

section Loops
variable {α σ ε : Type}

/-- `for x in items.iter_mut()`: the body rewrites its element, and may return early. -/
def forEachMut (body : α → σ → Except ε (α × σ)) : List α → σ → Except ε (List α × σ)
  | [], acc => .ok ([], acc)
  | x :: xs, acc => do
      let (x, acc) ← body x acc
      let (xs, acc) ← forEachMut body xs acc
      return (x :: xs, acc)

/-- `if let Some(items) = obj.get_mut(name).and_then(as_array_mut)`. -/
def withArray (name : String) (body : List Value → σ → Except ε (List Value × σ)) (obj : Object)
    (acc : σ) : Except ε (Object × σ) :=
  match (get obj name).bind Value.asArray with
  | some items => do
      let (items, acc) ← body items acc
      return (set obj name (.array items), acc)
  | none => .ok (obj, acc)

/-- What a body writes does not depend on what was collected, nor on whether it fails later:
it checks, and it rewrites. -/
def Splits (body : α → σ → Except ε (α × σ)) (check : α → σ → Except ε σ) (write : α → α) :
    Prop :=
  ∀ x acc, body x acc = (check x acc).map fun acc => (write x, acc)

/-- The array of a field, rewritten. -/
def mapField (name : String) (write : List Value → List Value) (obj : Object) : Object :=
  match (get obj name).bind Value.asArray with
  | some items => set obj name (.array (write items))
  | none => obj

/-- The checks of a loop over the array of a field. -/
def checkField (name : String) (check : List Value → σ → Except ε σ) (obj : Object) (acc : σ) :
    Except ε σ :=
  match (get obj name).bind Value.asArray with
  | some items => check items acc
  | none => .ok acc

lemma Splits.forEachMut {body : α → σ → Except ε (α × σ)} {check : α → σ → Except ε σ}
    {write : α → α} (splits : Splits body check write) :
    Splits (forEachMut body) (fun xs acc => xs.foldlM (fun acc x => check x acc) acc)
      (List.map write) := by
  intro xs
  induction xs with
  | nil => exact fun acc => rfl
  | cons x xs ih =>
    intro acc
    change _ = Except.map _ ((x :: xs).foldlM (fun acc x => check x acc) acc)
    rw [Json.forEachMut, splits x acc, List.foldlM_cons]
    cases check x acc with
    | error e => rfl
    | ok acc =>
      have rest : Json.forEachMut body xs acc = Except.map (fun acc => (xs.map write, acc))
        (xs.foldlM (fun acc x => check x acc) acc) := ih acc
      change (Json.forEachMut body xs acc >>= _) =
        Except.map _ (xs.foldlM (fun acc x => check x acc) acc)
      rw [rest]
      cases xs.foldlM (fun acc x => check x acc) acc <;> rfl

lemma Splits.withArray {body : List Value → σ → Except ε (List Value × σ)}
    {check : List Value → σ → Except ε σ} {write : List Value → List Value}
    (splits : Splits body check write) (name : String) :
    Splits (withArray name body) (checkField name check) (mapField name write) := by
  intro obj acc
  unfold Json.withArray checkField mapField
  split
  next items _ =>
    rw [splits items acc]
    cases check items acc <;> rfl
  next => rfl

variable {name other : String} {write write' : List Value → List Value}

lemma get_mapField_self (obj : Object) (name : String) (write : List Value → List Value) :
    (get (mapField name write obj) name).bind Value.asArray =
      ((get obj name).bind Value.asArray).map write := by
  unfold mapField
  split
  next items found =>
    obtain ⟨v, hv, -⟩ := Option.bind_eq_some_iff.mp found
    rw [found, get_set_self, hv]
    rfl
  next missing => simp [missing]

lemma get_mapField_other (apart : other ≠ name) (obj : Object) :
    get (mapField name write obj) other = get obj other := by
  unfold mapField
  split
  · exact get_set_other apart obj _
  · rfl

lemma mapField_mapField (obj : Object) (name : String) :
    mapField name write (mapField name write' obj) = mapField name (write ∘ write') obj := by
  have now := get_mapField_self obj name write'
  cases found : (get obj name).bind Value.asArray with
  | none => simp [mapField, found]
  | some items =>
    have once : mapField name write' obj = set obj name (.array (write' items)) := by
      simp [mapField, found]
    rw [found, Option.map_some] at now
    rw [mapField, now, once]
    simp [mapField, found, set_set]

lemma mapField_comm (apart : other ≠ name) (obj : Object) :
    mapField other write (mapField name write' obj) =
      mapField name write' (mapField other write obj) := by
  cases hn : (get obj name).bind Value.asArray <;> cases ho : (get obj other).bind Value.asArray <;>
    simp only [mapField, hn, ho, get_set_other apart, get_set_other apart.symm]
  exact set_comm apart obj _ _

/-- The checks do not see what was written, if those of the loop over the array do not. -/
lemma checkField_mapField_self {check : List Value → σ → Except ε σ} {obj : Object} {acc : σ}
    (same : ∀ items, (get obj name).bind Value.asArray = some items →
      check (write items) acc = check items acc) :
    checkField name check (mapField name write obj) acc = checkField name check obj acc := by
  have now := get_mapField_self obj name write
  unfold checkField
  cases found : (get obj name).bind Value.asArray with
  | none => simp [now, found]
  | some items => simp [now, found, same items found]

lemma checkField_mapField_other {check : List Value → σ → Except ε σ} {obj : Object} {acc : σ}
    (apart : other ≠ name) :
    checkField other check (mapField name write obj) acc = checkField other check obj acc := by
  simp only [checkField, get_mapField_other apart]

end Loops
end NScale.Json
