import NScale.TagInjection

/-!
# What tag injection rejects

A job is checked by one pass over its services, in the order of the traversal, and the pass
stops at the first service that is at fault. For a job of the shape that Nomad returns this
is a Traefik-enabled service without a router, or a service whose tags are `null`.
-/
namespace NScale.JobMutator
open Json

/-- The field is absent, null, or an array of such items. -/
def OptionalList (P : Value → Prop) (name : String) (obj : Object) : Prop :=
  get obj name = none ∨ get obj name = some .null ∨
    ∃ items, get obj name = some (.array items) ∧ ∀ v ∈ items, P v

def Named (obj : Object) : Prop := ∃ s, get obj "Name" = some (.string s)

def ServiceShaped (service : Value) : Prop :=
  ∃ obj, service = .object obj ∧ Named obj ∧ OptionalList (fun v => ∃ s, v = .string s) "Tags" obj

def TaskShaped (task : Value) : Prop :=
  ∃ obj, task = .object obj ∧ OptionalList ServiceShaped "Services" obj

def GroupShaped (taskGroup : Value) : Prop :=
  ∃ obj, taskGroup = .object obj ∧ Named obj ∧ OptionalList ServiceShaped "Services" obj ∧
    OptionalList TaskShaped "Tasks" obj

def JobShaped (job : Value) : Prop :=
  ∃ obj, job = .object obj ∧ (∃ s, get obj "ID" = some (.string s)) ∧
    ∃ taskGroups, get obj "TaskGroups" = some (.array taskGroups) ∧ ∀ v ∈ taskGroups, GroupShaped v

def Enabled (service : Value) : Prop := .string traefikEnableTag ∈ itemsOf "Tags" service

/-- The service is enabled, and no tag names a router. -/
def Unrouted (service : Value) : Prop :=
  Enabled service ∧ ∀ routerName, ¬ HasRouter (itemsOf "Tags" service) routerName

def tagsOf (service : Value) : Option Value := service.asObject.bind fun obj => get obj "Tags"

/-- The rejection that the documentation describes: exactly the jobs with an enabled service
without a router are rejected, an error is about an enabled service, and where the job is
accepted the other services are as they were. -/
structure Documented (job : Value) (result : Result (Value × List JobRegistration)) : Prop where
  rejected : (∃ e, result = .error e) ↔ ∃ service ∈ services job, Unrouted service
  blamed : ∀ e, result = .error e → ∃ service ∈ services job, Enabled service ∧
    ∃ jobId groupName acc, checkService jobId groupName service acc = .error e
  untouched : ∀ (out : Value) (registrations : List JobRegistration),
    result = .ok (out, registrations) → ∀ (i : ℕ) (service : Value),
      (services job)[i]? = some service → ¬ Enabled service → (services out)[i]? = some service

/-- In the order of the traversal, an enabled service without a router comes before all `null`
tags, or else all services have an array of tags. -/
def TagsPresent (job : Value) : Prop :=
  (∃ before service after, services job = before ++ service :: after ∧ Unrouted service ∧
    ∀ v ∈ before, tagsOf v ≠ some .null) ∨
  ∀ service ∈ services job, ∃ tags, tagsOf service = some (.array tags)

/-! ## One pass over the services -/

/-- The services of a group, with the name of the group. -/
def located (taskGroup : Value) : List (String × Value) :=
  (servicesOfGroup taskGroup).map fun service =>
    (((taskGroup.asObject.bind fun obj => get obj "Name").bind Value.asStr).getD "", service)

/-- A pass over groups is a pass over their members. -/
lemma foldlM_flatMap {α β σ ε : Type} {g : α → List β} {check : σ → β → Except ε σ}
    {each : σ → α → Except ε σ} {xs : List α}
    (spec : ∀ x ∈ xs, ∀ acc, each acc x = (g x).foldlM check acc) (acc : σ) :
    xs.foldlM each acc = (xs.flatMap g).foldlM check acc := by
  induction xs generalizing acc with
  | nil => rfl
  | cons x xs ih =>
    rw [List.flatMap_cons, List.foldlM_append, List.foldlM_cons, spec x List.mem_cons_self]
    exact bind_congr (ih fun x hx => spec x (List.mem_cons_of_mem _ hx))

/-- The step fails with the error, or it passes. -/
def Ends {σ ε : Type} (result : Except ε σ) : Option ε → Prop
  | some e => result = .error e
  | none => ∃ acc, result = .ok acc

lemma Ends.map {α β ε : Type} {result : Except ε α} {o : Option ε} (ends : Ends result o)
    (g : α → β) : Ends (result.map g) o := by
  cases o with
  | some e =>
    have failed : result = .error e := ends
    rw [failed]
    rfl
  | none =>
    obtain ⟨a, rfl⟩ := ends
    exact ⟨g a, rfl⟩

/-- A fold stops at the first item at fault. -/
lemma foldlM_ends {β σ ε : Type} {check : σ → β → Except ε σ} {fault : β → Option ε} {xs : List β}
    (spec : ∀ x ∈ xs, ∀ acc, Ends (check acc x) (fault x)) (acc : σ) :
    Ends (xs.foldlM check acc) (xs.findSome? fault) := by
  induction xs generalizing acc with
  | nil => exact ⟨acc, rfl⟩
  | cons x xs ih =>
    have first := spec x List.mem_cons_self acc
    rw [List.findSome?_cons, List.foldlM_cons]
    cases at_ : fault x with
    | some e =>
      rw [at_] at first
      have failed : check acc x = .error e := first
      rw [failed]
      rfl
    | none =>
      rw [at_] at first
      obtain ⟨acc', passed⟩ := first
      rw [passed]
      exact ih (fun x hx => spec x (List.mem_cons_of_mem _ hx)) acc'

lemma checkField_optional {P : Value → Prop} {name : String} {obj : Object}
    {check : List Value → Injected → Result Injected} (shaped : OptionalList P name obj)
    (skips : ∀ acc, check [] acc = .ok acc) (acc : Injected) :
    checkField name check obj acc = check (itemsOf name (.object obj)) acc := by
  rcases shaped with absent | null | ⟨items, found, -⟩
  · simp [checkField, itemsOf, Value.asObject, absent, skips]
  · simp [checkField, itemsOf, Value.asObject, null, Value.asArray, skips]
  · simp [checkField, itemsOf, Value.asObject, found]

lemma mem_itemsOf_shaped {P : Value → Prop} {name : String} {obj : Object} {v : Value}
    (shaped : OptionalList P name obj) (mem : v ∈ itemsOf name (.object obj)) : P v := by
  rcases shaped with absent | null | ⟨items, found, all⟩
  · simp [itemsOf, Value.asObject, absent] at mem
  · simp [itemsOf, Value.asObject, null, Value.asArray] at mem
  · exact all v (by simpa [itemsOf, Value.asObject, found] using mem)

section Pass
variable (jobId : String)

/-- The check of a located service. -/
def checkLocated (acc : Injected) (p : String × Value) : Result Injected :=
  checkService jobId p.1 p.2 acc

variable {jobId}

lemma checkTask_eq {groupName : String} {task : Value} (shaped : TaskShaped task) (acc : Injected) :
    checkTask jobId groupName task acc =
      checkServices jobId groupName (itemsOf "Services" task) acc := by
  obtain ⟨obj, rfl, services⟩ := shaped
  exact checkField_optional services (fun _ => rfl) acc

/-- The traversal of a group is a pass over its services. -/
lemma checkTaskGroup_eq (jobId : String) {taskGroup : Value} (shaped : GroupShaped taskGroup) (acc : Injected) :
    checkTaskGroup jobId taskGroup acc = (located taskGroup).foldlM (checkLocated jobId) acc := by
  obtain ⟨obj, rfl, ⟨groupName, named⟩, services, tasks⟩ := shaped
  have name : (get obj "Name").bind Value.asStr = some groupName := by simp [named, Value.asStr]
  have pass (items : List Value) (acc : Injected) : checkServices jobId groupName items acc =
      (items.map fun service => (groupName, service)).foldlM (checkLocated jobId) acc := by
    rw [List.foldlM_map]
    rfl
  have each (acc : Injected) : checkField "Tasks" (fun tasks acc => tasks.foldlM
      (fun acc task => checkTask jobId groupName task acc) acc) obj acc =
        checkServices jobId groupName
          ((itemsOf "Tasks" (.object obj)).flatMap (itemsOf "Services")) acc := by
    rw [checkField_optional tasks (fun _ => rfl)]
    exact foldlM_flatMap (fun task mem => checkTask_eq (mem_itemsOf_shaped tasks mem)) acc
  have split_ : located (.object obj) =
      (itemsOf "Services" (.object obj)).map (fun service => (groupName, service)) ++
        ((itemsOf "Tasks" (.object obj)).flatMap (itemsOf "Services")).map
          fun service => (groupName, service) := by
    simp only [located, servicesOfGroup, Value.asObject, Option.bind_some, name, Option.getD_some,
      List.map_append]
  have own (acc : Injected) : checkField "Services" (checkServices jobId groupName) obj acc =
      checkServices jobId groupName (itemsOf "Services" (.object obj)) acc :=
    checkField_optional services (fun _ => rfl) acc
  have unfolded : checkTaskGroup jobId (.object obj) acc =
      checkField "Services" (checkServices jobId groupName) obj acc >>= fun acc =>
        checkField "Tasks" (fun tasks acc => tasks.foldlM (fun acc task =>
          checkTask jobId groupName task acc) acc) obj acc := by
    unfold checkTaskGroup
    simp only [Value.asObject, okOr, bind, Except.bind, name]
  rw [unfolded, own, split_, List.foldlM_append, ← pass]
  refine bind_congr fun acc => ?_
  rw [each, pass]

/-- A shaped service has no tags, `null` tags, or an array of tags. -/
lemma tagsOf_shaped {service : Value} (shaped : ServiceShaped service) :
    tagsOf service = none ∨ tagsOf service = some .null ∨
      ∃ tags, tagsOf service = some (.array tags) := by
  obtain ⟨obj, rfl, -, tags⟩ := shaped
  exact tags.imp_right (Or.imp_right fun ⟨items, found, _⟩ => ⟨items, found⟩)

lemma itemsOf_tags {service : Value} :
    itemsOf "Tags" service = ((tagsOf service).bind Value.asArray).getD [] := rfl

lemma unrouted_iff {service : Value} : Unrouted service ↔
    hasTraefikEnabled (itemsOf "Tags" service) = true ∧
      (collectRouterNames (itemsOf "Tags" service)).isEmpty = true := by
  rw [Unrouted, Enabled, hasTraefikEnabled_iff, List.isEmpty_iff, List.eq_nil_iff_forall_not_mem]
  simp only [mem_collectRouterNames]

lemma Enabled.tagsOf_ne {service : Value} (enabled : Enabled service) :
    tagsOf service ≠ some .null := by
  intro null
  simp [Enabled, itemsOf_tags, null, Value.asArray] at enabled

variable {service : Value}

variable (jobId) in
lemma checkService_null (groupName : String) (shaped : ServiceShaped service) (null : tagsOf service = some .null) :
    ∃ text, ∀ acc, checkService jobId groupName service acc = .error (.nomad ("service '" ++ text)) := by
  obtain ⟨obj, rfl, ⟨serviceName, named⟩, -⟩ := shaped
  have found : get obj "Tags" = some .null := null
  refine ⟨serviceName ++ ("' in group '" ++ (groupName ++ ("' of job '" ++ (jobId ++
    "' has non-array Tags")))), fun acc => ?_⟩
  simp only [checkService, Value.asObject, okOr, bind, Except.bind, named, Option.bind_some,
    Value.asStr, orInsert_of_some found, found, Value.asArray, String.append_assoc]

variable (jobId) in
/-- Absent tags are checked as if there were none. -/
lemma checkService_tags (groupName : String) (shaped : ServiceShaped service) (present : tagsOf service ≠ some .null) :
    ∃ serviceName, ∀ acc, checkService jobId groupName service acc =
      if hasTraefikEnabled (itemsOf "Tags" service) then
        if (collectRouterNames (itemsOf "Tags" service)).isEmpty then
          .error (.nomad ("traefik-enabled service '" ++ serviceName ++ "' in group '" ++ groupName ++
            "' of job '" ++ jobId ++ "' is missing explicit router tags"))
        else .ok (acc.register jobId serviceName groupName)
      else .ok acc := by
  have cases_ := tagsOf_shaped shaped
  obtain ⟨obj, rfl, ⟨serviceName, named⟩, -⟩ := shaped
  refine ⟨serviceName, fun acc => ?_⟩
  have read : (get (orInsert obj "Tags" (.array [])) "Tags").bind Value.asArray =
      some (itemsOf "Tags" (.object obj)) := by
    rw [get_orInsert_self, itemsOf_tags]
    change (some ((tagsOf (.object obj)).getD (.array []))).bind Value.asArray = _
    rcases cases_ with absent | null | ⟨tags, found⟩
    · simp [absent]
    · exact absurd null present
    · simp [found]
  simp only [checkService, Value.asObject, okOr, bind, Except.bind, named, Option.bind_some,
    Value.asStr, read]

variable (jobId) in
/-- The error of a located service that is at fault. -/
def fault (p : String × Value) : Option NscaleError :=
  match checkLocated jobId ⟨[], []⟩ p with
  | .error e => some e
  | .ok _ => none

variable {p : String × Value}

/-- Whether a service is at fault does not depend on the services before it. -/
lemma checkLocated_ends (jobId : String) (shaped : ServiceShaped p.2) (acc : Injected) :
    Ends (checkLocated jobId acc p) (fault jobId p) := by
  unfold fault
  by_cases null : tagsOf p.2 = some .null
  · obtain ⟨text, checked⟩ := checkService_null jobId p.1 shaped null
    simp only [checkLocated, checked, Ends]
  · obtain ⟨serviceName, checked⟩ := checkService_tags jobId p.1 shaped null
    simp only [checkLocated, checked]
    split_ifs <;> simp [Ends]

lemma fault_none_iff (shaped : ServiceShaped p.2) :
    fault jobId p = none ↔ tagsOf p.2 ≠ some .null ∧ ¬ Unrouted p.2 := by
  unfold fault
  by_cases null : tagsOf p.2 = some .null
  · obtain ⟨text, checked⟩ := checkService_null jobId p.1 shaped null
    simp [checkLocated, checked, null]
  · obtain ⟨serviceName, checked⟩ := checkService_tags jobId p.1 shaped null
    rw [unrouted_iff]
    simp only [checkLocated, checked, ne_eq, null, not_false_eq_true, true_and, not_and]
    split_ifs <;> simp_all

end Pass

section Shapes
variable {job taskGroup : Value}

lemma servicesOfGroup_shaped (shaped : GroupShaped taskGroup) :
    ∀ service ∈ servicesOfGroup taskGroup, ServiceShaped service := by
  obtain ⟨obj, rfl, -, services, tasks⟩ := shaped
  intro service mem
  rcases List.mem_append.mp mem with own | nested
  · exact mem_itemsOf_shaped services own
  · obtain ⟨task, memTask, within⟩ := List.mem_flatMap.mp nested
    obtain ⟨obj', rfl, taskServices⟩ := mem_itemsOf_shaped tasks memTask
    exact mem_itemsOf_shaped taskServices within

lemma services_shaped (shaped : JobShaped job) : ∀ service ∈ services job, ServiceShaped service := by
  obtain ⟨obj, rfl, -, taskGroups, found, all⟩ := shaped
  intro service mem
  obtain ⟨taskGroup, memGroup, within⟩ := List.mem_flatMap.mp mem
  have listed : taskGroup ∈ taskGroups := by
    simpa [itemsOf, Value.asObject, found] using memGroup
  exact servicesOfGroup_shaped (all taskGroup listed) service within

/-- The check of a job stops at the first of its services that is at fault. -/
lemma checkJob_shaped (shaped : JobShaped job) : ∃ (jobId : String) (pass : List (String × Value)),
    services job = pass.map Prod.snd ∧
      Ends (checkJob job) (pass.findSome? (fault jobId)) := by
  have members := services_shaped shaped
  obtain ⟨obj, rfl, ⟨jobId, id⟩, taskGroups, found, all⟩ := shaped
  have items : itemsOf "TaskGroups" (.object obj) = taskGroups := by
    simp [itemsOf, Value.asObject, found]
  have listed : services (.object obj) = (taskGroups.flatMap located).map Prod.snd := by
    rw [services, items, List.map_flatMap]
    refine List.flatMap_congr fun taskGroup _ => ?_
    simp [located, Function.comp_def]
  have unfolded : checkJob (.object obj) = (taskGroups.foldlM (fun acc taskGroup =>
      checkTaskGroup jobId taskGroup acc) ⟨[], []⟩).map Injected.registrations := by
    unfold checkJob
    simp only [Value.asObject, okOr, bind, Except.bind, id, Option.bind_some, Value.asStr,
      Option.some_or, found, Value.asArray]
    cases taskGroups.foldlM (fun acc taskGroup => checkTaskGroup jobId taskGroup acc) _ <;> rfl
  have onePass := foldlM_flatMap (fun taskGroup mem => checkTaskGroup_eq jobId
    (all taskGroup mem)) ⟨[], []⟩
  have ends := foldlM_ends (fun p mem => checkLocated_ends jobId (members p.2
    (listed ▸ List.mem_map_of_mem mem : p.2 ∈ services (.object obj)))) ⟨[], []⟩
  refine ⟨jobId, taskGroups.flatMap located, listed, ?_⟩
  rw [unfolded, onePass]
  exact ends.map _

lemma route_unenabled {service : Value} (f : String)
    (tagged : ∃ tags, tagsOf service = some (.array tags))
    (unenabled : ¬ Enabled service) : route f service = service := by
  obtain ⟨tags, found⟩ := tagged
  obtain ⟨obj, isObject, present⟩ := Option.bind_eq_some_iff.mp found
  have off : ¬ hasTraefikEnabled tags = true := by
    rwa [hasTraefikEnabled_iff, ← show itemsOf "Tags" service = tags by simp [itemsOf_tags, found]]
  cases service with
  | object obj' =>
    obtain rfl : obj' = obj := Option.some.inj isObject
    simp [route, Value.asObject, orInsert_of_some present, present, off]
  | _ => simp [Value.asObject] at isObject

lemma route_untagged {service : Value} (f : String) (shaped : ServiceShaped service)
    (absent : tagsOf service = none) : route f service ≠ service := by
  obtain ⟨obj, rfl, -⟩ := shaped
  have missing : get obj "Tags" = none := absent
  have off : ¬ hasTraefikEnabled [] = true := by decide
  have read := get_orInsert_self obj "Tags" (.array [])
  intro same
  simp only [route, Value.asObject, read, missing, Option.getD_none, Option.bind_some,
    Value.asArray_array, off, Bool.false_eq_true, if_false, Value.object.injEq] at same
  rw [same, missing] at read
  exact absurd read (by simp)

/-- An error about an enabled service does not say that its tags are no array. -/
lemma checkService_enabled_ne {service : Value} {jobId groupName text : String} {acc : Injected}
    (shaped : ServiceShaped service) (enabled : Enabled service) :
    checkService jobId groupName service acc ≠ .error (.nomad ("service '" ++ text)) := by
  intro failed
  obtain ⟨serviceName, checked⟩ := checkService_tags jobId groupName shaped enabled.tagsOf_ne
  rw [checked] at failed
  split_ifs at failed
  simp only [Except.error.injEq, NscaleError.nomad.injEq, String.append_assoc] at failed
  have heads := congrArg (fun s : String => s.toList.head?) failed
  have left (s : String) : ("traefik-enabled service '" ++ s).toList.head? = some 't' := by
    simp only [String.toList_append]
    rfl
  have right (s : String) : ("service '" ++ s).toList.head? = some 's' := by
    simp only [String.toList_append]
    rfl
  simp only [left, right] at heads
  exact absurd heads (by decide)

/-- Where the first service at fault stops the injection, the tags decide which one it is. -/
lemma unrouted_of_first {jobId : String} {pass : List (String × Value)} {e : NscaleError}
    (members : ∀ p ∈ pass, ServiceShaped p.2) (listed : services job = pass.map Prod.snd)
    (present : TagsPresent job) (first : pass.findSome? (fault jobId) = some e) :
    ∃ p ∈ pass, Unrouted p.2 ∧ fault jobId p = some e := by
  have faulty {p : String × Value} (mem : p ∈ pass) (fails : fault jobId p = some e)
      (tagged : tagsOf p.2 ≠ some .null) : Unrouted p.2 := by
    by_contra routed
    simp [(fault_none_iff (members p mem)).mpr ⟨tagged, routed⟩] at fails
  rcases present with ⟨before, service, after, order, unrouted, tagged⟩ | arrays
  · rw [listed] at order
    obtain ⟨pre, rest, rfl, rfl, rest_⟩ := List.map_eq_append_iff.mp order
    obtain ⟨p, post, rfl, rfl, -⟩ := List.map_eq_cons_iff.mp rest_
    rw [List.findSome?_append, Option.or_eq_some_iff] at first
    rcases first with early | ⟨-, at_⟩
    · obtain ⟨q, mem, fails⟩ := List.exists_of_findSome?_eq_some early
      have mem' := List.mem_append_left (p :: post) mem
      exact ⟨q, mem', faulty mem' fails (tagged q.2 (List.mem_map_of_mem mem)), fails⟩
    · have mem : p ∈ pre ++ p :: post := by simp
      obtain ⟨e', fails⟩ : ∃ e', fault jobId p = some e' := by
        by_contra passes
        have none_ : fault jobId p = none := by simpa [Option.eq_none_iff_forall_ne_some] using passes
        exact ((fault_none_iff (members p mem)).mp none_).2 unrouted
      rw [List.findSome?_cons, fails] at at_
      exact ⟨p, mem, unrouted, fails.trans at_⟩
  · obtain ⟨p, mem, fails⟩ := List.exists_of_findSome?_eq_some first
    obtain ⟨tags, found⟩ := arrays p.2 (listed ▸ List.mem_map_of_mem mem)
    exact ⟨p, mem, faulty mem fails (by simp [found]), fails⟩

/-- A rejection is the documented one if an unrouted service is the first at fault. -/
lemma documented_error_iff {jobId : String} {pass : List (String × Value)} {e : NscaleError}
    (members : ∀ p ∈ pass, ServiceShaped p.2) (listed : services job = pass.map Prod.snd)
    (first : pass.findSome? (fault jobId) = some e) :
    Documented job (.error e) ↔ TagsPresent job := by
  constructor
  · intro documented
    obtain ⟨before, p, after, rfl, fails, passes⟩ := List.findSome?_eq_some_iff.mp first
    have mem : p ∈ before ++ p :: after := by simp
    refine Or.inl ⟨before.map Prod.snd, p.2, after.map Prod.snd, by simp [listed], ?_, ?_⟩
    · by_contra routed
      have null : tagsOf p.2 = some .null := by
        by_contra tagged
        simp [(fault_none_iff (members p mem)).mpr ⟨tagged, routed⟩] at fails
      obtain ⟨text, checked⟩ := checkService_null jobId p.1 (members p mem) null
      have about : e = .nomad ("service '" ++ text) := by
        simpa [fault, checkLocated, checked] using fails.symm
      obtain ⟨service, within, enabled, _, _, _, checked'⟩ := documented.blamed e rfl
      rw [listed] at within
      obtain ⟨q, memq, rfl⟩ := List.mem_map.mp within
      exact checkService_enabled_ne (members q memq) enabled (about ▸ checked')
    · intro v hv
      obtain ⟨q, memq, rfl⟩ := List.mem_map.mp hv
      exact ((fault_none_iff (members q (List.mem_append_left _ memq))).mp (passes q memq)).1
  · intro present
    obtain ⟨p, mem, unrouted, fails⟩ := unrouted_of_first members listed present first
    have within : p.2 ∈ services job := listed ▸ List.mem_map_of_mem mem
    have checked := checkLocated_ends jobId (members p mem) ⟨[], []⟩
    rw [fails] at checked
    refine ⟨⟨fun _ => ⟨p.2, within, unrouted⟩, fun _ => ⟨e, rfl⟩⟩, ?_, by simp⟩
    intro e' same
    obtain rfl : e = e' := Except.error.inj same
    exact ⟨p.2, within, unrouted.1, jobId, p.1, ⟨[], []⟩, checked⟩

/-- An acceptance is the documented one if no service was without tags. -/
lemma documented_ok_iff {registrations : List JobRegistration} (f : String)
    (shaped : ∀ service ∈ services job, ServiceShaped service)
    (clean : ∀ service ∈ services job, tagsOf service ≠ some .null ∧ ¬ Unrouted service) :
    Documented job (.ok (mapServices (route f) job, registrations)) ↔ TagsPresent job := by
  constructor
  · intro documented
    refine Or.inr fun service mem => ?_
    rcases tagsOf_shaped (shaped service mem) with absent | null | found
    · obtain ⟨i, at_⟩ := List.mem_iff_getElem?.mp mem
      have unenabled : ¬ Enabled service := by simp [Enabled, itemsOf_tags, absent]
      have kept := documented.untouched _ _ rfl i service at_ unenabled
      rw [services_mapServices, List.getElem?_map, at_] at kept
      exact absurd (Option.some.inj kept) (route_untagged f (shaped service mem) absent)
    · exact absurd null (clean service mem).1
    · exact found
  · rintro (⟨before, service, after, order, unrouted, -⟩ | arrays)
    · exact absurd unrouted (clean service (order ▸ by simp)).2
    · refine ⟨⟨by simp, ?_⟩, by simp, ?_⟩
      · rintro ⟨service, mem, unrouted⟩
        exact absurd unrouted (clean service mem).2
      · intro out registrations' same i service at_ unenabled
        obtain ⟨rfl, -⟩ := Prod.mk.inj (Except.ok.inj same)
        rw [services_mapServices, List.getElem?_map, at_]
        exact congrArg some (route_unenabled f (arrays service (List.mem_of_getElem? at_)) unenabled)

end Shapes

/-- A job with one group-level service, which has these fields besides its name. -/
def oneService (fields : Object) : Value :=
  .object [("ID", .string "web"), ("TaskGroups", .array [.object [("Name", .string "main"),
    ("Services", .array [.object (("Name", .string "api") :: fields)])]])]

lemma oneService_shaped {fields : Object}
    (tags : OptionalList (fun v => ∃ s, v = .string s) "Tags" (("Name", .string "api") :: fields)) :
    JobShaped (oneService fields) := by
  have service : ServiceShaped (.object (("Name", .string "api") :: fields)) :=
    ⟨_, rfl, ⟨"api", by simp [get_cons]⟩, tags⟩
  have group : GroupShaped (.object [("Name", .string "main"),
      ("Services", .array [.object (("Name", .string "api") :: fields)])]) :=
    ⟨_, rfl, ⟨"main", by simp [get_cons]⟩,
      Or.inr (Or.inr ⟨[.object (("Name", .string "api") :: fields)], by simp [get_cons],
        by simpa using service⟩), Or.inl (by simp [Json.get])⟩
  exact ⟨_, rfl, ⟨"web", by simp [get_cons]⟩, [_], by rw [get_cons, get_cons]; rfl,
    by simpa using group⟩

lemma services_oneService (fields : Object) :
    services (oneService fields) = [.object (("Name", .string "api") :: fields)] := by
  have group : servicesOfGroup (.object [("Name", .string "main"),
      ("Services", .array [.object (("Name", .string "api") :: fields)])]) =
        [.object (("Name", .string "api") :: fields)] := by
    simp only [servicesOfGroup, itemsOf, Value.asObject, Option.bind_some, get_cons]
    simp [Json.get]
  simp [services, oneService, itemsOf, Value.asObject, get_cons, group]

def enabledTags : Object := [("Tags", .array [.string "traefik.enable=true"])]

end NScale.JobMutator
