import NScale.Job
import NScale.Json
import NScale.Upsert

/-!
# Tag injection

`crates/nscale-nomad/src/job_mutator.rs`: the Traefik tags of a parsed Nomad job are
rewritten so that every router of a Traefik-enabled service targets nscale, and the
registrations of these services are collected. The job is dropped when an error is
returned, so what was rewritten before the error is not modelled.
-/
namespace NScale.JobMutator
open Json

def traefikEnableTag : String := "traefik.enable=true"

def routerPrefix : String := "traefik.http.routers."

/-- `str::strip_prefix`. -/
def stripPrefix (pre s : String) : Option String :=
  if pre.toList.isPrefixOf s.toList then some (String.ofList (s.toList.drop pre.toList.length))
  else none

/-- `str::split_once`, at a dot. -/
def splitOnce (s : String) : Option (String × String) :=
  match s.toList.dropWhile (· ≠ '.') with
  | _ :: after => some (String.ofList (s.toList.takeWhile (· ≠ '.')), String.ofList after)
  | [] => none

def startsWith (pre : String) (v : Value) : Bool :=
  v.asStr.any fun s => pre.toList.isPrefixOf s.toList

/-- The names in order, as the iteration over a `BTreeSet` has them. -/
def collectRouterNames (tags : List Value) : List String :=
  let names := ((tags.filterMap Value.asStr).filterMap (stripPrefix routerPrefix)).filterMap
    fun tag => (splitOnce tag).map Prod.fst
  names.dedup.insertionSort (· ≤ ·)

def servicePrefix (routerName : String) : String := routerPrefix ++ routerName ++ ".service="

def upsertRouterServiceTag (tags : List Value) (routerName fileProviderService : String) :
    List Value :=
  let desired := servicePrefix routerName ++ fileProviderService
  match Upsert.indexes (startsWith (servicePrefix routerName)) tags 0 with
  | first :: rest =>
      let tags := if (tags[first]?).bind Value.asStr = some desired then tags
        else tags.set first (.string desired)
      rest.reverse.foldl List.eraseIdx tags
  | [] => tags ++ [.string desired]

/-- `seen` and `registrations`. -/
structure Injected where
  seen : List (String × String × String)
  registrations : List JobRegistration

def Injected.register (acc : Injected) (jobId serviceName groupName : String) : Injected :=
  if (jobId, serviceName, groupName) ∈ acc.seen then acc
  else ⟨(jobId, serviceName, groupName) :: acc.seen,
    acc.registrations ++ [⟨⟨jobId⟩, ⟨serviceName⟩, groupName⟩]⟩

def okOr {α : Type} (found : Option α) (e : NscaleError) : Result α :=
  match found with
  | some a => .ok a
  | none => .error e

def hasTraefikEnabled (tags : List Value) : Bool :=
  (tags.filterMap Value.asStr).any (· == traefikEnableTag)

section Inject
variable (jobId groupName fileProviderService : String)

/-- The body of the loop of `inject_service_tags`. -/
def injectServiceTag (service : Value) (acc : Injected) : Result (Value × Injected) := do
  let obj ← okOr service.asObject
    (.nomad ("service in group '" ++ groupName ++ "' of job '" ++ jobId ++ "' is not an object"))
  let serviceName ← okOr ((get obj "Name").bind Value.asStr)
    (.nomad ("service in group '" ++ groupName ++ "' of job '" ++ jobId ++ "' is missing Name"))
  let obj := orInsert obj "Tags" (.array [])
  let tags ← okOr ((get obj "Tags").bind Value.asArray)
    (.nomad ("service '" ++ serviceName ++ "' in group '" ++ groupName ++ "' of job '" ++ jobId ++
      "' has non-array Tags"))
  if hasTraefikEnabled tags then
    let routerNames := collectRouterNames tags
    if routerNames.isEmpty then
      .error (.nomad ("traefik-enabled service '" ++ serviceName ++ "' in group '" ++ groupName ++
        "' of job '" ++ jobId ++ "' is missing explicit router tags"))
    else
      let tags := routerNames.foldl
        (fun tags routerName => upsertRouterServiceTag tags routerName fileProviderService) tags
      .ok (.object (set obj "Tags" (.array tags)), acc.register jobId serviceName groupName)
  else .ok (.object obj, acc)

def injectServiceTags : List Value → Injected → Result (List Value × Injected) :=
  forEachMut (injectServiceTag jobId groupName fileProviderService)

/-- The body of the loop over the tasks of a group. -/
def injectTask (task : Value) (acc : Injected) : Result (Value × Injected) := do
  let obj ← okOr task.asObject
    (.nomad ("task in group '" ++ groupName ++ "' of job '" ++ jobId ++ "' is not an object"))
  let (obj, acc) ← withArray "Services" (injectServiceTags jobId groupName fileProviderService)
    obj acc
  return (.object obj, acc)

/-- The body of the loop over the task groups. -/
def injectTaskGroup (taskGroup : Value) (acc : Injected) : Result (Value × Injected) := do
  let obj ← okOr taskGroup.asObject
    (.nomad ("task group in job '" ++ jobId ++ "' is not an object"))
  let groupName ← okOr ((get obj "Name").bind Value.asStr)
    (.nomad ("task group in job '" ++ jobId ++ "' is missing Name"))
  let (obj, acc) ← withArray "Services" (injectServiceTags jobId groupName fileProviderService)
    obj acc
  let (obj, acc) ← withArray "Tasks" (forEachMut (injectTask jobId groupName fileProviderService))
    obj acc
  return (.object obj, acc)

end Inject

def injectNscaleTags (job : Value) (fileProviderService : String) :
    Result (Value × List JobRegistration) := do
  let obj ← okOr job.asObject (.nomad "parsed job is not a JSON object")
  let jobId ← okOr (((get obj "ID").bind Value.asStr).or ((get obj "Name").bind Value.asStr))
    (.nomad "parsed job is missing ID")
  let taskGroups ← okOr ((get obj "TaskGroups").bind Value.asArray)
    (.nomad ("parsed job '" ++ jobId ++ "' is missing TaskGroups"))
  let (taskGroups, acc) ← forEachMut (injectTaskGroup jobId fileProviderService) taskGroups ⟨[], []⟩
  return (.object (set obj "TaskGroups" (.array taskGroups)), acc.registrations)

/-! The router of a tag is what stands between the prefix and the next dot. -/

lemma stripPrefix_eq_some {pre s t : String} : stripPrefix pre s = some t ↔ s = pre ++ t := by
  unfold stripPrefix
  split
  next starts =>
    obtain ⟨rest, hrest⟩ := List.isPrefixOf_iff_prefix.mp starts
    have same : s.toList.drop pre.toList.length = rest := by simp [← hrest]
    rw [same, Option.some.injEq, ← String.toList_inj, ← String.toList_inj, String.toList_append,
      String.toList_ofList, ← hrest, List.append_cancel_left_eq]
  next other =>
    refine ⟨by simp, ?_⟩
    rintro rfl
    exact absurd (List.isPrefixOf_iff_prefix.mpr ⟨t.toList, by simp⟩) other

lemma takeWhile_dot {l rest : List Char} (free : '.' ∉ l) :
    (l ++ '.' :: rest).takeWhile (· ≠ '.') = l ∧
      (l ++ '.' :: rest).dropWhile (· ≠ '.') = '.' :: rest := by
  induction l with
  | nil => simp
  | cons c l ih =>
    have other : c ≠ '.' := fun h => free (by simp [h])
    obtain ⟨before, after⟩ := ih fun mem => free (by simp [mem])
    simp_all

lemma splitOnce_eq_some {s a b : String} :
    splitOnce s = some (a, b) ↔ s = a ++ "." ++ b ∧ '.' ∉ a.toList := by
  constructor
  · intro found
    unfold splitOnce at found
    split at found
    next c after tail =>
      obtain ⟨rfl, rfl⟩ : String.ofList (s.toList.takeWhile (· ≠ '.')) = a ∧
        String.ofList after = b := by simpa using found
      have dot : c = '.' := by
        have nonempty : s.toList.dropWhile (· ≠ '.') ≠ [] := by rw [tail]; exact List.cons_ne_nil _ _
        have head := List.head_dropWhile_not (· ≠ '.') nonempty
        simp only [tail, List.head_cons, decide_eq_false_iff_not, not_not] at head
        exact head
      refine ⟨?_, fun mem => ?_⟩
      · rw [← String.toList_inj]
        simp only [String.toList_append, String.toList_ofList, List.append_assoc]
        calc s.toList = s.toList.takeWhile (· ≠ '.') ++ s.toList.dropWhile (· ≠ '.') :=
              (List.takeWhile_append_dropWhile).symm
          _ = s.toList.takeWhile (· ≠ '.') ++ ("." : String).toList ++ after := by
              rw [tail, dot]; simp
          _ = _ := by simp
      · have unmet := List.mem_takeWhile_imp (by simpa using mem)
        simp at unmet
    next => simp at found
  · rintro ⟨rfl, free⟩
    have split_ : (a.toList ++ '.' :: b.toList).takeWhile (· ≠ '.') = a.toList ∧
        (a.toList ++ '.' :: b.toList).dropWhile (· ≠ '.') = '.' :: b.toList := takeWhile_dot free
    have chars : (a ++ "." ++ b).toList = a.toList ++ '.' :: b.toList := by simp
    unfold splitOnce
    rw [chars, split_.1, split_.2]
    simp

lemma startsWith_string {pre s : String} :
    startsWith pre (.string s) = true ↔ ∃ rest, s = pre ++ rest := by
  change pre.toList.isPrefixOf s.toList = true ↔ _
  rw [List.isPrefixOf_iff_prefix]
  constructor
  · rintro ⟨rest, hrest⟩
    exact ⟨String.ofList rest, by rw [← String.toList_inj]; simp [hrest]⟩
  · rintro ⟨rest, rfl⟩
    exact ⟨rest.toList, by simp⟩

lemma startsWith_iff {pre : String} {v : Value} :
    startsWith pre v = true ↔ ∃ rest, v = .string (pre ++ rest) := by
  cases v with
  | string s =>
    rw [startsWith_string]
    simp
  | _ => simp [startsWith, Value.asStr]

/-- The names that the tags mention as routers. -/
def HasRouter (tags : List Value) (routerName : String) : Prop :=
  '.' ∉ routerName.toList ∧
    ∃ rest, Value.string (routerPrefix ++ routerName ++ "." ++ rest) ∈ tags

lemma mem_collectRouterNames {tags : List Value} {routerName : String} :
    routerName ∈ collectRouterNames tags ↔ HasRouter tags routerName := by
  simp only [collectRouterNames, List.mem_insertionSort, List.mem_dedup, List.mem_filterMap,
    Value.asStr_eq_some, stripPrefix_eq_some, Option.map_eq_some_iff, Prod.exists]
  constructor
  · rintro ⟨tag, ⟨s, ⟨v, hv, rfl⟩, rfl⟩, a, rest, found, rfl⟩
    obtain ⟨rfl, free⟩ := splitOnce_eq_some.mp found
    exact ⟨free, rest, by simpa [String.append_assoc] using hv⟩
  · rintro ⟨free, rest, hv⟩
    have found := splitOnce_eq_some (b := rest).mpr ⟨rfl, free⟩
    exact ⟨_, ⟨_, ⟨_, hv, rfl⟩, by simp [String.append_assoc]⟩, routerName, rest, found, rfl⟩

lemma nodup_collectRouterNames (tags : List Value) : (collectRouterNames tags).Nodup :=
  ((List.perm_insertionSort _ _).nodup_iff).mpr (List.nodup_dedup _)

/-- The iteration order depends on the names only. -/
lemma collectRouterNames_congr {tags tags' : List Value}
    (same : ∀ routerName, HasRouter tags routerName ↔ HasRouter tags' routerName) :
    collectRouterNames tags = collectRouterNames tags' := by
  have perm : (collectRouterNames tags).Perm (collectRouterNames tags') := by
    rw [List.perm_ext_iff_of_nodup (nodup_collectRouterNames _) (nodup_collectRouterNames _)]
    intro routerName
    rw [mem_collectRouterNames, mem_collectRouterNames, same]
  exact perm.eq_of_pairwise (fun _ _ _ _ => le_antisymm) (List.pairwise_insertionSort _ _)
    (List.pairwise_insertionSort _ _)

/-- No tag targets two routers. -/
lemma servicePrefix_injective {r r' x y : String} (free : '.' ∉ r.toList) (free' : '.' ∉ r'.toList)
    (same : servicePrefix r ++ x = servicePrefix r' ++ y) : r = r' := by
  have chars : r.toList ++ '.' :: ("service=" ++ x).toList =
      r'.toList ++ '.' :: ("service=" ++ y).toList := by
    have full := congrArg String.toList same
    have dotted : (".service=" : String).toList = '.' :: ("service=" : String).toList := by decide
    simp only [servicePrefix, String.toList_append, List.append_assoc, dotted, List.cons_append,
      List.append_cancel_left_eq] at full ⊢
    exact full
  have heads := congrArg (List.takeWhile (· ≠ '.')) chars
  rw [(takeWhile_dot free).1, (takeWhile_dot free').1] at heads
  exact String.toList_inj.mp heads

/-- The indexes and removals of the code bring the tags to one match. -/
lemma upsertRouterServiceTag_eq (tags : List Value) (routerName f : String) :
    upsertRouterServiceTag tags routerName f = Upsert.upsert (startsWith (servicePrefix routerName))
      (.string (servicePrefix routerName ++ f)) tags := by
  unfold upsertRouterServiceTag
  split
  next first rest found =>
    let desired := servicePrefix routerName ++ f
    have written : (if (tags[first]?).bind Value.asStr = some desired then tags
        else tags.set first (.string desired)) = tags.set first (.string desired) := by
      split
      next already =>
        obtain ⟨v, hv, hs⟩ := Option.bind_eq_some_iff.mp already
        obtain ⟨bound, item⟩ := List.getElem?_eq_some_iff.mp hv
        rw [← Value.asStr_eq_some.mp hs, ← item, List.set_getElem_self]
      next => rfl
    rw [← Upsert.upsert_of_first found]
    exact congrArg (rest.reverse.foldl List.eraseIdx) written
  next none_ => exact (Upsert.upsert_of_none none_ _).symm

end NScale.JobMutator
