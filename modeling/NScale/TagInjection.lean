import NScale.JobMutator

/-!
# What tag injection changes

The loops of the injection split into checks, which do not depend on the target, and a map
over the services of the job. On the tags of one service, every router ends up with exactly
one service tag, and the other tags stay as they are, in their order.
-/
namespace NScale.JobMutator
open Json

/-- The items of an array field; a field of another kind has none. -/
def itemsOf (name : String) (v : Value) : List Value :=
  ((v.asObject.bind fun obj => get obj name).bind Value.asArray).getD []

def servicesOfGroup (taskGroup : Value) : List Value :=
  itemsOf "Services" taskGroup ++ (itemsOf "Tasks" taskGroup).flatMap (itemsOf "Services")

/-- The services of a job, at group level and at task level, in every task group. -/
def services (job : Value) : List Value := (itemsOf "TaskGroups" job).flatMap servicesOfGroup

/-- The object, with one of its arrays mapped. -/
def mapItems (name : String) (write : Value → Value) : Value → Value
  | .object obj => .object (mapField name (List.map write) obj)
  | v => v

def mapServicesOfGroup (write : Value → Value) (taskGroup : Value) : Value :=
  mapItems "Tasks" (mapItems "Services" write) (mapItems "Services" write taskGroup)

/-- The job, with each of its services rewritten and nothing else. -/
def mapServices (write : Value → Value) : Value → Value :=
  mapItems "TaskGroups" (mapServicesOfGroup write)

section Maps
variable {name other : String} {write write' : Value → Value}

lemma itemsOf_mapItems_self (v : Value) :
    itemsOf name (mapItems name write v) = (itemsOf name v).map write := by
  cases v with
  | object obj =>
    have now := get_mapField_self obj name (List.map write)
    simp only [itemsOf, mapItems, Value.asObject, Option.bind_some, now]
    cases (get obj name).bind Value.asArray <;> rfl
  | _ => rfl

lemma itemsOf_mapItems_other (apart : other ≠ name) (v : Value) :
    itemsOf other (mapItems name write v) = itemsOf other v := by
  cases v with
  | object obj => simp [itemsOf, mapItems, Value.asObject, get_mapField_other apart]
  | _ => rfl

lemma mapItems_mapItems (v : Value) :
    mapItems name write (mapItems name write' v) = mapItems name (write ∘ write') v := by
  cases v with
  | object obj => simp [mapItems, mapField_mapField]
  | _ => rfl

lemma mapItems_comm (apart : other ≠ name) (v : Value) :
    mapItems other write (mapItems name write' v) =
      mapItems name write' (mapItems other write v) := by
  cases v with
  | object obj => simp [mapItems, mapField_comm apart]
  | _ => rfl

/-- The services of the result are the services of the job, rewritten one by one. -/
theorem services_mapServices (write : Value → Value) (job : Value) :
    services (mapServices write job) = (services job).map write := by
  have group : ∀ taskGroup, servicesOfGroup (mapServicesOfGroup write taskGroup) =
      (servicesOfGroup taskGroup).map write := by
    intro taskGroup
    have tasks : (itemsOf "Tasks" (mapServicesOfGroup write taskGroup)).flatMap
        (itemsOf "Services") =
          ((itemsOf "Tasks" taskGroup).flatMap (itemsOf "Services")).map write := by
      rw [mapServicesOfGroup, itemsOf_mapItems_self, itemsOf_mapItems_other (by decide),
        List.flatMap_map, List.map_flatMap]
      exact congrArg₂ List.flatMap (funext fun task => itemsOf_mapItems_self task) rfl
    have own : itemsOf "Services" (mapServicesOfGroup write taskGroup) =
        (itemsOf "Services" taskGroup).map write := by
      rw [mapServicesOfGroup, itemsOf_mapItems_other (by decide), itemsOf_mapItems_self]
    rw [servicesOfGroup, servicesOfGroup, own, tasks, List.map_append]
  rw [services, services, mapServices, itemsOf_mapItems_self, List.flatMap_map, List.map_flatMap]
  exact congrArg₂ List.flatMap (funext group) rfl

lemma mapServices_mapServices (write write' : Value → Value) (job : Value) :
    mapServices write (mapServices write' job) = mapServices (write ∘ write') job := by
  have group : mapServicesOfGroup write ∘ mapServicesOfGroup write' =
      mapServicesOfGroup (write ∘ write') := by
    funext taskGroup
    have tasks : mapItems "Services" write ∘ mapItems "Services" write' =
        mapItems "Services" (write ∘ write') := funext mapItems_mapItems
    have apart : "Services" ≠ "Tasks" := by decide
    simp only [Function.comp_apply, mapServicesOfGroup]
    rw [mapItems_comm apart, mapItems_mapItems, mapItems_mapItems, tasks]
  rw [mapServices, mapServices, mapItems_mapItems, group, mapServices]

end Maps

/-! The checks of the injection, which do not depend on its target. -/

section Checks
variable (jobId groupName : String)

def checkService (service : Value) (acc : Injected) : Result Injected := do
  let obj ← okOr service.asObject
    (.nomad ("service in group '" ++ groupName ++ "' of job '" ++ jobId ++ "' is not an object"))
  let serviceName ← okOr ((get obj "Name").bind Value.asStr)
    (.nomad ("service in group '" ++ groupName ++ "' of job '" ++ jobId ++ "' is missing Name"))
  let tags ← okOr ((get (orInsert obj "Tags" (.array [])) "Tags").bind Value.asArray)
    (.nomad ("service '" ++ serviceName ++ "' in group '" ++ groupName ++ "' of job '" ++ jobId ++
      "' has non-array Tags"))
  if hasTraefikEnabled tags then
    if (collectRouterNames tags).isEmpty then
      .error (.nomad ("traefik-enabled service '" ++ serviceName ++ "' in group '" ++ groupName ++
        "' of job '" ++ jobId ++ "' is missing explicit router tags"))
    else .ok (acc.register jobId serviceName groupName)
  else .ok acc

def checkServices (items : List Value) (acc : Injected) : Result Injected :=
  items.foldlM (fun acc service => checkService jobId groupName service acc) acc

def checkTask (task : Value) (acc : Injected) : Result Injected := do
  let obj ← okOr task.asObject
    (.nomad ("task in group '" ++ groupName ++ "' of job '" ++ jobId ++ "' is not an object"))
  checkField "Services" (checkServices jobId groupName) obj acc

def checkTaskGroup (taskGroup : Value) (acc : Injected) : Result Injected := do
  let obj ← okOr taskGroup.asObject
    (.nomad ("task group in job '" ++ jobId ++ "' is not an object"))
  let groupName ← okOr ((get obj "Name").bind Value.asStr)
    (.nomad ("task group in job '" ++ jobId ++ "' is missing Name"))
  let acc ← checkField "Services" (checkServices jobId groupName) obj acc
  checkField "Tasks" (fun tasks acc => tasks.foldlM (fun acc task =>
    checkTask jobId groupName task acc) acc) obj acc

end Checks

def checkJob (job : Value) : Result (List JobRegistration) := do
  let obj ← okOr job.asObject (.nomad "parsed job is not a JSON object")
  let jobId ← okOr (((get obj "ID").bind Value.asStr).or ((get obj "Name").bind Value.asStr))
    (.nomad "parsed job is missing ID")
  let taskGroups ← okOr ((get obj "TaskGroups").bind Value.asArray)
    (.nomad ("parsed job '" ++ jobId ++ "' is missing TaskGroups"))
  let acc ← taskGroups.foldlM (fun acc taskGroup => checkTaskGroup jobId taskGroup acc) ⟨[], []⟩
  return acc.registrations

/-- The tags of an enabled service, with all its routers sent to the target. -/
def reroute (fileProviderService : String) (tags : List Value) : List Value :=
  (collectRouterNames tags).foldl
    (fun tags routerName => upsertRouterServiceTag tags routerName fileProviderService) tags

/-- What the injection writes for one service. -/
def route (fileProviderService : String) (service : Value) : Value :=
  match service.asObject with
  | none => service
  | some obj =>
    let obj := orInsert obj "Tags" (.array [])
    match (get obj "Tags").bind Value.asArray with
    | some tags =>
        if hasTraefikEnabled tags then
          .object (set obj "Tags" (.array (reroute fileProviderService tags)))
        else .object obj
    | none => .object obj

section Split
variable (jobId groupName f : String)

lemma injectServiceTag_splits :
    Splits (injectServiceTag jobId groupName f) (checkService jobId groupName) (route f) := by
  intro service acc
  unfold injectServiceTag checkService route
  cases service.asObject with
  | none => rfl
  | some obj =>
    simp only [okOr, bind, Except.bind]
    cases (get obj "Name").bind Value.asStr with
    | none => rfl
    | some serviceName =>
      cases (get (orInsert obj "Tags" (.array [])) "Tags").bind Value.asArray with
      | none => rfl
      | some tags =>
        by_cases enabled : hasTraefikEnabled tags = true
        · by_cases empty : (collectRouterNames tags).isEmpty = true <;>
            simp [enabled, empty, Except.map, reroute]
        · simp [enabled, Except.map]

lemma injectServiceTags_splits :
    Splits (injectServiceTags jobId groupName f) (checkServices jobId groupName)
      (List.map (route f)) := (injectServiceTag_splits jobId groupName f).forEachMut

lemma injectTask_splits :
    Splits (injectTask jobId groupName f) (checkTask jobId groupName)
      (mapItems "Services" (route f)) := by
  intro task acc
  have splits := (injectServiceTags_splits jobId groupName f).withArray "Services"
  cases task with
  | object obj =>
    change (withArray "Services" _ obj acc >>= _) = _
    rw [splits obj acc]
    change _ = (checkField "Services" (checkServices jobId groupName) obj acc).map _
    cases checkField "Services" (checkServices jobId groupName) obj acc <;> rfl
  | _ => rfl

lemma injectTaskGroup_splits :
    Splits (injectTaskGroup jobId f) (checkTaskGroup jobId) (mapServicesOfGroup (route f)) := by
  intro taskGroup acc
  cases taskGroup with
  | object obj =>
    unfold injectTaskGroup checkTaskGroup
    simp only [Value.asObject, okOr, bind, Except.bind]
    cases (get obj "Name").bind Value.asStr with
    | none => rfl
    | some groupName =>
      have own := (injectServiceTags_splits jobId groupName f).withArray "Services"
      have tasks := (injectTask_splits jobId groupName f).forEachMut.withArray "Tasks"
      simp only [own obj acc]
      cases checkField "Services" (checkServices jobId groupName) obj acc with
      | error e => rfl
      | ok acc =>
        simp only [Except.map]
        rw [tasks _ acc, checkField_mapField_other (by decide)]
        cases checkField "Tasks" _ obj acc <;> rfl
  | _ => rfl

/-- The injection checks the job, and rewrites its services. -/
theorem injectNscaleTags_eq (job : Value) (f : String) :
    injectNscaleTags job f =
      (checkJob job).map fun registrations => (mapServices (route f) job, registrations) := by
  cases job with
  | object obj =>
    unfold injectNscaleTags checkJob
    simp only [Value.asObject, okOr, bind, Except.bind]
    cases ((get obj "ID").bind Value.asStr).or ((get obj "Name").bind Value.asStr) with
    | none => rfl
    | some jobId =>
      have splits := (injectTaskGroup_splits jobId f).forEachMut
      cases found : (get obj "TaskGroups").bind Value.asArray with
      | none => rfl
      | some taskGroups =>
        simp only [splits taskGroups]
        cases taskGroups.foldlM (fun acc taskGroup => checkTaskGroup jobId taskGroup acc) _ with
        | error e => rfl
        | ok acc => simp [Except.map, mapServices, mapItems, mapField, found, pure, Except.pure]
  | _ => rfl

end Split

/-! The tags of one service. -/

lemma startsWith_servicePrefix {r r' : String} {v : Value} (free : '.' ∉ r.toList)
    (free' : '.' ∉ r'.toList) (h : startsWith (servicePrefix r) v = true)
    (h' : startsWith (servicePrefix r') v = true) : r = r' := by
  obtain ⟨x, rfl⟩ := startsWith_iff.mp h
  obtain ⟨y, same⟩ := startsWith_iff.mp h'
  exact servicePrefix_injective free free' (Value.string.inj same)

lemma startsWith_desired (r f : String) :
    startsWith (servicePrefix r) (.string (servicePrefix r ++ f)) = true :=
  startsWith_iff.mpr ⟨f, rfl⟩

/-- The loop over the router names. -/
def rerouteAll (names : List String) (f : String) (tags : List Value) : List Value :=
  names.foldl (fun tags routerName => upsertRouterServiceTag tags routerName f) tags

section Tags
variable {names : List String} {f g f₁ f₂ : String} {tags : List Value} {r : String}

lemma rerouteAll_cons (r : String) (names : List String) (f : String) (tags : List Value) :
    rerouteAll (r :: names) f tags = rerouteAll names f
      (Upsert.upsert (startsWith (servicePrefix r)) (.string (servicePrefix r ++ f)) tags) := by
  rw [rerouteAll, List.foldl_cons, upsertRouterServiceTag_eq]
  rfl

lemma filter_rerouteAll_of_apart {q : Value → Bool}
    (apart : ∀ r ∈ names, ∀ v, startsWith (servicePrefix r) v = true → q v = false)
    (tags : List Value) : (rerouteAll names f tags).filter q = tags.filter q := by
  induction names generalizing tags with
  | nil => rfl
  | cons r names ih =>
    have here := apart r List.mem_cons_self
    rw [rerouteAll_cons, ih fun r' hr => apart r' (List.mem_cons_of_mem _ hr),
      Upsert.filter_upsert_of_apart here (startsWith_desired r f)]

lemma filter_rerouteAll_self (once : names.Nodup) (free : ∀ r ∈ names, '.' ∉ r.toList)
    (mem : r ∈ names) (tags : List Value) :
    (rerouteAll names f tags).filter (startsWith (servicePrefix r)) =
      [.string (servicePrefix r ++ f)] := by
  induction names generalizing tags with
  | nil => simp at mem
  | cons r' names ih =>
    obtain ⟨fresh, once'⟩ := List.nodup_cons.mp once
    rw [rerouteAll_cons]
    rcases List.mem_cons.mp mem with rfl | later
    · rw [filter_rerouteAll_of_apart, Upsert.filter_upsert_self (startsWith_desired r f)]
      intro r' hr v hv
      by_contra both
      have same := startsWith_servicePrefix (free r' (List.mem_cons_of_mem _ hr))
        (free r List.mem_cons_self) hv (by simpa using both)
      exact fresh (same ▸ hr)
    · exact ih once' (fun r hr => free r (List.mem_cons_of_mem _ hr)) later _

lemma reroute_eq (f : String) (tags : List Value) :
    reroute f tags = rerouteAll (collectRouterNames tags) f tags := rfl

lemma free_of_mem_collect (mem : r ∈ collectRouterNames tags) : '.' ∉ r.toList :=
  (mem_collectRouterNames.mp mem).1

/-- Every router has exactly one service tag, and it names the target. -/
lemma filter_reroute_router (has : HasRouter tags r) :
    (reroute f tags).filter (startsWith (servicePrefix r)) = [.string (servicePrefix r ++ f)] :=
  filter_rerouteAll_self (nodup_collectRouterNames tags) (fun _ => free_of_mem_collect)
    (mem_collectRouterNames.mpr has) tags

/-- The tag targets a router of the service. -/
def Managed (tags : List Value) (v : Value) : Prop :=
  ∃ routerName, HasRouter tags routerName ∧ startsWith (servicePrefix routerName) v = true

open scoped Classical in
lemma filter_reroute_unmanaged (f : String) (tags : List Value) :
    (reroute f tags).filter (fun v => ¬ Managed tags v) = tags.filter fun v => ¬ Managed tags v := by
  refine filter_rerouteAll_of_apart (fun r hr v hv => ?_) tags
  have managed : Managed tags v := ⟨r, mem_collectRouterNames.mp hr, hv⟩
  simp [managed]

lemma hasTraefikEnabled_iff : hasTraefikEnabled tags = true ↔ .string traefikEnableTag ∈ tags := by
  simp only [hasTraefikEnabled, List.any_eq_true, List.mem_filterMap, Value.asStr_eq_some,
    beq_iff_eq]
  exact ⟨fun ⟨_, ⟨_, mem, same⟩, enabled⟩ => enabled ▸ same ▸ mem, fun mem => ⟨_, ⟨_, mem, rfl⟩, rfl⟩⟩

/-- Tags that do not begin like a service tag are neither added nor removed. -/
lemma mem_rerouteAll {v : Value} (other : ∀ r ∈ names, startsWith (servicePrefix r) v = false) :
    v ∈ rerouteAll names f tags ↔ v ∈ tags := by
  classical
  have same : (rerouteAll names f tags).filter (fun x => x = v) = tags.filter fun x => x = v := by
    refine filter_rerouteAll_of_apart (fun r hr x hx => ?_) tags
    by_contra equal
    obtain rfl : x = v := by simpa using equal
    simp [other r hr] at hx
  have mem := congrArg (v ∈ ·) same
  simpa using mem

lemma hasTraefikEnabled_reroute : hasTraefikEnabled (reroute f tags) = hasTraefikEnabled tags := by
  rw [Bool.eq_iff_iff, hasTraefikEnabled_iff, hasTraefikEnabled_iff]
  refine mem_rerouteAll fun r _ => ?_
  by_contra starts
  obtain ⟨rest, same⟩ := startsWith_iff.mp (by simpa using starts)
  have chars := congrArg (fun s : String => s.toList.take 9) (Value.string.inj same)
  have left : traefikEnableTag.toList.take 9 = "traefik.e".toList := by decide
  have right : (servicePrefix r ++ rest).toList.take 9 = "traefik.h".toList := by
    have pre : routerPrefix.toList = "traefik.h".toList ++ "ttp.routers.".toList := by decide
    simp only [servicePrefix, String.toList_append, List.append_assoc, pre]
    exact List.take_left' (by decide)
  rw [left, right] at chars
  exact absurd chars (by decide)

/-- A service tag that was written names its router. -/
lemma hasRouter_reroute : HasRouter (reroute f tags) r ↔ HasRouter tags r := by
  have dotted : (".service=" : String) = "." ++ "service=" := by decide
  constructor
  · rintro ⟨free, rest, mem⟩
    by_cases managed : ∃ r' ∈ collectRouterNames tags,
        startsWith (servicePrefix r') (.string (routerPrefix ++ r ++ "." ++ rest)) = true
    · obtain ⟨r', hr', starts⟩ := managed
      obtain ⟨x, same⟩ := startsWith_iff.mp starts
      have chars : r.toList ++ '.' :: rest.toList = r'.toList ++ '.' :: ("service=" ++ x).toList := by
        have full := congrArg String.toList (Value.string.inj same)
        have dot : ("." : String).toList = ['.'] := by decide
        simp only [servicePrefix, dotted, String.toList_append, List.append_assoc, dot,
          List.singleton_append, List.append_cancel_left_eq] at full ⊢
        exact full
      have heads := congrArg (List.takeWhile (· ≠ '.')) chars
      rw [(takeWhile_dot free).1, (takeWhile_dot (free_of_mem_collect hr')).1] at heads
      exact String.toList_inj.mp heads ▸ mem_collectRouterNames.mp hr'
    · push Not at managed
      exact ⟨free, rest, (mem_rerouteAll fun r' hr' => by simpa using managed r' hr').mp mem⟩
  · intro has
    have written : Value.string (servicePrefix r ++ f) ∈ reroute f tags := by
      have one := filter_reroute_router (f := f) has
      exact (List.mem_filter.mp (one ▸ List.mem_singleton_self _)).1
    refine ⟨has.1, "service=" ++ f, ?_⟩
    simpa only [servicePrefix, dotted, String.append_assoc] using written

lemma collectRouterNames_reroute : collectRouterNames (reroute f tags) = collectRouterNames tags :=
  collectRouterNames_congr fun _ => hasRouter_reroute

/-- A service tag of the router, redirected. -/
def redirect (f r : String) (v : Value) : Value :=
  if startsWith (servicePrefix r) v then .string (servicePrefix r ++ f) else v

/-- The redirection of one router does not get in the way of the others. -/
lemma rerouteAll_map_redirect (free : ∀ r' ∈ names, '.' ∉ r'.toList) (free' : '.' ∉ r.toList)
    (apart : r ∉ names) (tags : List Value) :
    rerouteAll names f (tags.map (redirect g r)) = (rerouteAll names f tags).map (redirect g r) := by
  induction names generalizing tags with
  | nil => rfl
  | cons r' names ih =>
    have other : ∀ v, startsWith (servicePrefix r) v = true →
        startsWith (servicePrefix r') v = false := by
      intro v hv
      by_contra both
      have same := startsWith_servicePrefix free' (free r' List.mem_cons_self) hv (by simpa using both)
      exact apart (same ▸ List.mem_cons_self)
    have respects : ∀ v, startsWith (servicePrefix r') (redirect g r v) =
        startsWith (servicePrefix r') v := by
      intro v
      unfold redirect
      split
      next hv => rw [other _ (startsWith_desired r g), other v hv]
      next => rfl
    have keeps : redirect g r (.string (servicePrefix r' ++ f)) = .string (servicePrefix r' ++ f) := by
      have unmet : ¬ startsWith (servicePrefix r) (.string (servicePrefix r' ++ f)) = true := by
        intro hv
        exact absurd (startsWith_desired r' f) (by simp [other _ hv])
      simp [redirect, unmet]
    rw [rerouteAll_cons, rerouteAll_cons, Upsert.upsert_map respects keeps]
    exact ih (fun r' hr => free r' (List.mem_cons_of_mem _ hr))
      (fun mem => apart (List.mem_cons_of_mem _ mem)) _

/-- Rerouting a rerouted list, and rerouting the list itself, only redirect what the first
rerouting wrote. -/
lemma rerouteAll_eq_redirect (once : names.Nodup) (free : ∀ r ∈ names, '.' ∉ r.toList)
    (tags : List Value) :
    rerouteAll names f₂ tags =
      (rerouteAll names f₁ tags).map fun v => names.foldr (redirect f₂) v := by
  induction names generalizing tags with
  | nil => simp [rerouteAll]
  | cons r names ih =>
    obtain ⟨fresh, once'⟩ := List.nodup_cons.mp once
    have free' : ∀ r' ∈ names, '.' ∉ r'.toList := fun r' hr => free r' (List.mem_cons_of_mem _ hr)
    have first := (Upsert.upsert_map_replace (e := .string (servicePrefix r ++ f₂))
      (startsWith_desired r f₁) tags).symm
    have step := rerouteAll_map_redirect (f := f₂) (g := f₂) free' (free r List.mem_cons_self) fresh
    rw [rerouteAll_cons, rerouteAll_cons, first]
    refine (step _).trans ?_
    rw [ih once' free', List.map_map]
    rfl

lemma rerouteAll_of_single (once : names.Nodup) (free : ∀ r ∈ names, '.' ∉ r.toList)
    (single : ∀ r ∈ names, ∃ v, tags.filter (startsWith (servicePrefix r)) = [v]) :
    rerouteAll names f₂ tags = tags.map fun v => names.foldr (redirect f₂) v := by
  induction names with
  | nil => simp [rerouteAll]
  | cons r names ih =>
    obtain ⟨fresh, once'⟩ := List.nodup_cons.mp once
    have free' : ∀ r' ∈ names, '.' ∉ r'.toList := fun r' hr => free r' (List.mem_cons_of_mem _ hr)
    obtain ⟨v, hv⟩ := single r List.mem_cons_self
    have step := rerouteAll_map_redirect (f := f₂) (g := f₂) free' (free r List.mem_cons_self) fresh
    rw [rerouteAll_cons, Upsert.upsert_of_single hv]
    refine (step _).trans ?_
    rw [ih once' free' fun r' hr => single r' (List.mem_cons_of_mem _ hr), List.map_map]
    rfl

/-- A second rerouting undoes the first. -/
lemma reroute_reroute (f₁ f₂ : String) (tags : List Value) :
    reroute f₂ (reroute f₁ tags) = reroute f₂ tags := by
  have once := nodup_collectRouterNames tags
  have free : ∀ r ∈ collectRouterNames tags, '.' ∉ r.toList := fun _ => free_of_mem_collect
  rw [reroute_eq f₂ (reroute f₁ tags), collectRouterNames_reroute, reroute_eq f₂ tags,
    rerouteAll_eq_redirect once free tags]
  exact rerouteAll_of_single once free fun r hr =>
    ⟨_, filter_reroute_router (mem_collectRouterNames.mp hr)⟩

end Tags

/-! One service. -/

/-- What the injection does to a service. -/
structure Rerouted (fileProviderService : String) (service service' : Value) : Prop where
  /-- each router of an enabled service has one service tag, which names the target -/
  routed : .string traefikEnableTag ∈ itemsOf "Tags" service →
    ∀ routerName, HasRouter (itemsOf "Tags" service) routerName →
      (itemsOf "Tags" service').filter (startsWith (servicePrefix routerName)) =
        [.string (servicePrefix routerName ++ fileProviderService)]
  /-- the other tags are those of the service, in their order -/
  kept : open scoped Classical in .string traefikEnableTag ∈ itemsOf "Tags" service →
    (itemsOf "Tags" service').filter (fun v => ¬ Managed (itemsOf "Tags" service) v) =
      (itemsOf "Tags" service).filter fun v => ¬ Managed (itemsOf "Tags" service) v
  /-- a service that is not enabled keeps its tags -/
  untouched : .string traefikEnableTag ∉ itemsOf "Tags" service →
    itemsOf "Tags" service' = itemsOf "Tags" service
  /-- and the tags are all that is written -/
  fields : ∀ name, name ≠ "Tags" →
    (service'.asObject.bind fun obj => get obj name) = service.asObject.bind fun obj => get obj name

/-- The tags after the injection, those of a service without tags being none. -/
lemma itemsOf_route (f : String) (service : Value) :
    itemsOf "Tags" (route f service) =
      if hasTraefikEnabled (itemsOf "Tags" service) then reroute f (itemsOf "Tags" service)
      else itemsOf "Tags" service := by
  cases service with
  | object obj =>
    have found := get_orInsert_self obj "Tags" (.array [])
    have same : itemsOf "Tags" (.object obj) =
        (((get (orInsert obj "Tags" (.array [])) "Tags").bind Value.asArray).getD []) := by
      rw [found]
      cases h : get obj "Tags" <;> simp [itemsOf, Value.asObject, h]
    rw [same]
    unfold route
    simp only [Value.asObject]
    cases tags : (get (orInsert obj "Tags" (.array [])) "Tags").bind Value.asArray with
    | none => simp [itemsOf, Value.asObject, tags, hasTraefikEnabled]
    | some items =>
      by_cases enabled : hasTraefikEnabled items = true
      · simp [enabled, itemsOf, Value.asObject, get_set_self, found]
      · simp [enabled, itemsOf, Value.asObject, tags]
  | _ => simp [route, itemsOf, Value.asObject, hasTraefikEnabled]

lemma get_route {name : String} (apart : name ≠ "Tags") (f : String) (service : Value) :
    ((route f service).asObject.bind fun obj => get obj name) =
      service.asObject.bind fun obj => get obj name := by
  cases service with
  | object obj =>
    have added := get_orInsert_other apart obj (.array [])
    unfold route
    simp only [Value.asObject]
    cases (get (orInsert obj "Tags" (.array [])) "Tags").bind Value.asArray with
    | none => exact added
    | some tags =>
      by_cases enabled : hasTraefikEnabled tags = true
      · simp only [enabled, if_true, Option.bind_some, get_set_other apart, added]
      · simp only [enabled, Option.bind_some]
        exact added
  | _ => rfl

lemma rerouted_route (f : String) (service : Value) : Rerouted f service (route f service) where
  routed enabled routerName has := by
    rw [itemsOf_route, if_pos (hasTraefikEnabled_iff.mpr enabled)]
    exact filter_reroute_router has
  kept enabled := by
    rw [itemsOf_route, if_pos (hasTraefikEnabled_iff.mpr enabled)]
    exact filter_reroute_unmanaged f _
  untouched disabled := by
    rw [itemsOf_route, if_neg fun enabled => disabled (hasTraefikEnabled_iff.mp enabled)]
  fields name apart := get_route apart f service

/-- A second injection undoes the first. -/
lemma route_route (f₁ f₂ : String) (service : Value) :
    route f₂ (route f₁ service) = route f₂ service := by
  cases service with
  | object obj =>
    have found := get_orInsert_self obj "Tags" (.array [])
    generalize full : orInsert obj "Tags" (.array []) = whole at found
    cases tags : ((get obj "Tags").getD (.array [])).asArray with
    | none =>
      have once : ∀ f, route f (.object obj) = .object whole := by
        intro f
        simp [route, Value.asObject, full, found, tags]
      have twice : route f₂ (.object whole) = .object whole := by
        simp [route, Value.asObject, orInsert_of_some found, found, tags]
      rw [once, once, twice]
    | some items =>
      have once : ∀ f, route f (.object obj) = if hasTraefikEnabled items then
          .object (set whole "Tags" (.array (reroute f items))) else .object whole := by
        intro f
        simp [route, Value.asObject, full, found, tags]
      by_cases enabled : hasTraefikEnabled items = true
      · have now : ∀ f, get (set whole "Tags" (.array (reroute f items))) "Tags" =
            some (.array (reroute f items)) := by
          intro f
          rw [get_set_self, found, Option.map_some]
        rw [once, once, if_pos enabled, if_pos enabled]
        simp [route, Value.asObject, orInsert_of_some (now f₁), now, hasTraefikEnabled_reroute,
          enabled, set_set, reroute_reroute]
      · rw [once, once, if_neg enabled]
        simp [route, Value.asObject, orInsert_of_some found, found, tags, enabled]
  | _ => rfl

section Again
variable (jobId groupName f : String)

/-- The checks do not see an injection. -/
lemma checkService_route (service : Value) (acc : Injected) :
    checkService jobId groupName (route f service) acc = checkService jobId groupName service acc := by
  cases service with
  | object obj =>
    have found := get_orInsert_self obj "Tags" (.array [])
    have name : "Name" ≠ "Tags" := by decide
    have added := get_orInsert_other name obj (.array [])
    generalize full : orInsert obj "Tags" (.array []) = whole at found added
    cases tags : ((get obj "Tags").getD (.array [])).asArray with
    | none =>
      simp [route, checkService, Value.asObject, full, found, tags, okOr, bind, Except.bind, orInsert_of_some found,
        added]
    | some items =>
      by_cases enabled : hasTraefikEnabled items = true
      · have now : get (set whole "Tags" (.array (reroute f items))) "Tags" =
            some (.array (reroute f items)) := by rw [get_set_self, found, Option.map_some]
        simp [route, checkService, Value.asObject, full, found, tags, okOr, bind, Except.bind, enabled,
          orInsert_of_some now, now, get_set_other name, added, hasTraefikEnabled_reroute,
          collectRouterNames_reroute]
      · simp [route, checkService, Value.asObject, full, found, tags, okOr, bind, Except.bind, enabled,
          orInsert_of_some found, added]
  | _ => rfl

lemma checkServices_map (items : List Value) (acc : Injected) :
    checkServices jobId groupName (items.map (route f)) acc =
      checkServices jobId groupName items acc := by
  simp only [checkServices, List.foldlM_map, checkService_route]

lemma checkTask_mapItems (task : Value) (acc : Injected) :
    checkTask jobId groupName (mapItems "Services" (route f) task) acc =
      checkTask jobId groupName task acc := by
  cases task with
  | object obj => exact checkField_mapField_self fun items _ => checkServices_map _ _ _ items acc
  | _ => rfl

lemma checkTaskGroup_mapServices (taskGroup : Value) (acc : Injected) :
    checkTaskGroup jobId (mapServicesOfGroup (route f) taskGroup) acc =
      checkTaskGroup jobId taskGroup acc := by
  cases taskGroup with
  | object obj =>
    have tasks : "Name" ≠ "Tasks" := by decide
    have services : "Name" ≠ "Services" := by decide
    have apart : "Services" ≠ "Tasks" := by decide
    unfold checkTaskGroup
    simp only [mapServicesOfGroup, mapItems, Value.asObject, okOr, bind, Except.bind,
      get_mapField_other tasks, get_mapField_other services]
    cases (get obj "Name").bind Value.asStr with
    | none => rfl
    | some groupName =>
      simp only [checkField_mapField_other apart]
      rw [checkField_mapField_self fun items _ => checkServices_map _ _ _ items acc]
      cases checkField "Services" (checkServices jobId groupName) obj acc with
      | error e => rfl
      | ok acc =>
        simp only []
        rw [checkField_mapField_self, checkField_mapField_other apart.symm]
        intro items _
        simp only [List.foldlM_map, checkTask_mapItems]
  | _ => rfl

lemma checkJob_mapServices (job : Value) : checkJob (mapServices (route f) job) = checkJob job := by
  cases job with
  | object obj =>
    have id_ : "ID" ≠ "TaskGroups" := by decide
    have name : "Name" ≠ "TaskGroups" := by decide
    have now := get_mapField_self obj "TaskGroups" (List.map (mapServicesOfGroup (route f)))
    unfold checkJob
    simp only [mapServices, mapItems, Value.asObject, okOr, bind, Except.bind,
      get_mapField_other id_, get_mapField_other name, now]
    cases ((get obj "ID").bind Value.asStr).or ((get obj "Name").bind Value.asStr) with
    | none => rfl
    | some jobId =>
      cases (get obj "TaskGroups").bind Value.asArray with
      | none => rfl
      | some taskGroups =>
        simp only [Option.map_some, List.foldlM_map, checkTaskGroup_mapServices]
  | _ => rfl

end Again

lemma injectNscaleTags_ok {job out : Value} {f : String} {registrations : List JobRegistration}
    (done : injectNscaleTags job f = .ok (out, registrations)) :
    checkJob job = .ok registrations ∧ out = mapServices (route f) job := by
  rw [injectNscaleTags_eq] at done
  cases checked : checkJob job with
  | error e => simp [checked, Except.map] at done
  | ok found =>
    rw [checked] at done
    cases done
    exact ⟨rfl, rfl⟩

/-- An injection only rewrites the services of the job, and each of them is rerouted. -/
theorem injectNscaleTags_rerouted (job out : Value) (fileProviderService : String)
    (registrations : List JobRegistration)
    (done : injectNscaleTags job fileProviderService = .ok (out, registrations)) :
    ∃ write, out = mapServices write job ∧ services out = (services job).map write ∧
      ∀ service ∈ services job, Rerouted fileProviderService service (write service) := by
  obtain ⟨-, rfl⟩ := injectNscaleTags_ok done
  exact ⟨route fileProviderService, rfl, services_mapServices _ job,
    fun service _ => rerouted_route fileProviderService service⟩

def apiTags : List Value :=
  ["traefik.http.routers.a-b.rule=x", "traefik.enable=true", "traefik.http.routers.a.service=old",
    "traefik.http.routers.a.service=older"].map Value.string

example : (reroute "nscale" apiTags).map Value.asStr = ["traefik.http.routers.a-b.rule=x",
    "traefik.enable=true", "traefik.http.routers.a.service=nscale",
    "traefik.http.routers.a-b.service=nscale"].map some := by decide +kernel

/-- A job with one service in its group and one in its task. -/
def webJob : Value :=
  let service name (tags : List Value) := Value.object [("Name", .string name), ("Tags", .array tags)]
  .object [("ID", .string "web"), ("TaskGroups", .array [.object [("Name", .string "main"),
    ("Services", .array [service "api" apiTags]),
    ("Tasks", .array [.object [("Services", .array [service "admin" [.string "internal"]])]])]])]

lemma injectNscaleTags_webJob (f : String) : injectNscaleTags webJob f =
    .ok (mapServices (route f) webJob, [⟨⟨"web"⟩, ⟨"api"⟩, "main"⟩]) := by
  have checked : checkJob webJob = .ok [⟨⟨"web"⟩, ⟨"api"⟩, "main"⟩] := by decide +kernel
  rw [injectNscaleTags_eq, checked]
  rfl

theorem webJob_rerouted : ∃ out registrations,
    injectNscaleTags webJob "nscale" = .ok (out, registrations) ∧
      ∃ write, out = mapServices write webJob ∧ services out = (services webJob).map write ∧
        ∀ service ∈ services webJob, Rerouted "nscale" service (write service) :=
  ⟨_, _, injectNscaleTags_webJob "nscale",
    injectNscaleTags_rerouted _ _ _ _ (injectNscaleTags_webJob "nscale")⟩

/-- An injection leaves no trace in a later one, whatever the targets are. -/
theorem injectNscaleTags_absorbs (job : Value) (f₁ f₂ : String) :
    ((∃ done, injectNscaleTags job f₁ = .ok done) ↔ ∃ done, injectNscaleTags job f₂ = .ok done) ∧
      ∀ out registrations, injectNscaleTags job f₁ = .ok (out, registrations) →
        injectNscaleTags out f₂ = injectNscaleTags job f₂ := by
  constructor
  · rw [injectNscaleTags_eq, injectNscaleTags_eq]
    cases checkJob job <;> simp [Except.map]
  · intro out registrations done
    obtain ⟨-, rfl⟩ := injectNscaleTags_ok done
    rw [injectNscaleTags_eq, injectNscaleTags_eq, checkJob_mapServices, mapServices_mapServices]
    have same : route f₂ ∘ route f₁ = route f₂ := funext (route_route f₁ f₂)
    rw [same]

theorem webJob_absorbs : injectNscaleTags (mapServices (route "old") webJob) "nscale" =
    injectNscaleTags webJob "nscale" :=
  (injectNscaleTags_absorbs webJob "old" "nscale").2 _ _ (injectNscaleTags_webJob "old")

end NScale.JobMutator
