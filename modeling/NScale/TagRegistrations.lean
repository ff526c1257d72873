import NScale.TagRejection

/-!
# The registrations that tag injection reports

The traversal of a job is one pass over its services, each with the name of its group; a service
that is enabled is reported at its first occurrence.
-/
namespace NScale.JobMutator
open Json

section Occurrences
variable {α : Type} [DecidableEq α]

/-- The distinct elements, each once, in the order of their first occurrences. -/
structure FirstOccurrences (occurrences found : List α) : Prop where
  mem : ∀ a, a ∈ found ↔ a ∈ occurrences
  once : found.Nodup
  order : found.Pairwise fun a b => occurrences.idxOf a < occurrences.idxOf b

variable {occurrences found : List α} {a : α}

lemma FirstOccurrences.nil : FirstOccurrences ([] : List α) [] := ⟨by simp, by simp, by simp⟩

/-- An occurrence that follows leaves the earlier ones where they are. -/
lemma FirstOccurrences.order_snoc (first : FirstOccurrences occurrences found) (a : α) :
    found.Pairwise fun b c => (occurrences ++ [a]).idxOf b < (occurrences ++ [a]).idxOf c := by
  refine first.order.imp_of_mem fun {b c} memB memC less => ?_
  rwa [List.idxOf_append_of_mem ((first.mem b).mp memB),
    List.idxOf_append_of_mem ((first.mem c).mp memC)]

lemma FirstOccurrences.again (first : FirstOccurrences occurrences found) (seen : a ∈ found) :
    FirstOccurrences (occurrences ++ [a]) found where
  mem b := by
    rw [List.mem_append, List.mem_singleton, first.mem]
    exact ⟨.inl, fun h => h.elim id fun same => same ▸ (first.mem a).mp seen⟩
  once := first.once
  order := first.order_snoc a

lemma FirstOccurrences.new (first : FirstOccurrences occurrences found) (unseen : a ∉ found) :
    FirstOccurrences (occurrences ++ [a]) (found ++ [a]) where
  mem b := by rw [List.mem_append, List.mem_append, first.mem]
  once := first.once.append (by simp) (by simpa using unseen)
  order := by
    refine List.pairwise_append.mpr ⟨first.order_snoc a, by simp, fun b memB c memC => ?_⟩
    obtain rfl := List.mem_singleton.mp memC
    rw [List.idxOf_append_of_mem ((first.mem b).mp memB),
      List.idxOf_append_of_notMem (fun mem => unseen ((first.mem c).mpr mem))]
    exact Nat.lt_add_right _ (List.idxOf_lt_length_iff.mpr ((first.mem b).mp memB))

end Occurrences

/-- The ID of a job, or else its Name. -/
def jobIdOf (job : Value) : Option String :=
  job.asObject.bind fun obj =>
    ((get obj "ID").bind Value.asStr).or ((get obj "Name").bind Value.asStr)

def nameOf (v : Value) : String :=
  ((v.asObject.bind fun obj => get obj "Name").bind Value.asStr).getD ""

/-- The enabled services of the whole job in traversal order, as registrations. -/
def occurrences (jobId : String) (job : Value) : List JobRegistration :=
  (((itemsOf "TaskGroups" job).flatMap located).filter
    fun p => hasTraefikEnabled (itemsOf "Tags" p.2)).map
    fun p => ⟨⟨jobId⟩, ⟨nameOf p.2⟩, p.1⟩

/-- What a located service adds. -/
def collect (jobId : String) (acc : Injected) (p : String × Value) : Injected :=
  if hasTraefikEnabled (itemsOf "Tags" p.2) then acc.register jobId (nameOf p.2) p.1 else acc

section Pass
variable {jobId : String} {acc acc' : Injected}

lemma checkService_ok {groupName : String} {service : Value}
    (ok : checkService jobId groupName service acc = .ok acc') :
    acc' = collect jobId acc (groupName, service) := by
  unfold checkService at ok
  cases isObject : service.asObject with
  | none =>
    rw [isObject] at ok
    cases ok
  | some obj =>
    simp only [isObject, okOr, bind, Except.bind] at ok
    cases named : (get obj "Name").bind Value.asStr with
    | none =>
      rw [named] at ok
      cases ok
    | some serviceName =>
      simp only [named] at ok
      have name : nameOf service = serviceName := by simp [nameOf, isObject, named]
      rw [get_orInsert_self] at ok
      cases array : ((get obj "Tags").getD (.array [])).asArray with
      | none =>
        simp only [Option.bind_some, array] at ok
        cases ok
      | some tags =>
        have same : itemsOf "Tags" service = tags := by
          simp only [itemsOf, isObject, Option.bind_some]
          cases tagged : get obj "Tags" with
          | none =>
            rw [tagged] at array
            exact Option.some.inj array
          | some v =>
            rw [tagged] at array
            simp only [Option.bind_some]
            rw [show v.asArray = some tags from array]
            rfl
        simp only [Option.bind_some, array] at ok
        simp only [collect, same, name]
        split_ifs at ok ⊢ with enabled unrouted
        · exact (Except.ok.inj ok).symm
        · exact (Except.ok.inj ok).symm

/-- A pass that succeeds collects from every element. -/
lemma foldlM_ok {β σ ε : Type} {check : σ → β → Except ε σ} {collect : σ → β → σ} {xs : List β}
    {acc acc' : σ} (spec : ∀ x ∈ xs, ∀ acc acc', check acc x = .ok acc' → acc' = collect acc x)
    (ok : xs.foldlM check acc = .ok acc') : acc' = xs.foldl collect acc := by
  induction xs generalizing acc with
  | nil => exact (Except.ok.inj ok).symm
  | cons x xs ih =>
    rw [List.foldlM_cons] at ok
    cases first : check acc x with
    | error e =>
      rw [first] at ok
      cases ok
    | ok next =>
      rw [first] at ok
      rw [List.foldl_cons, ← spec x List.mem_cons_self acc next first]
      exact ih (fun y mem => spec y (List.mem_cons_of_mem _ mem)) ok

lemma checkField_ok {name : String} {obj : Object} {check : List Value → Injected → Result Injected}
    {g : Injected → List Value → Injected} (none_ : ∀ acc, g acc [] = acc)
    (spec : ∀ items acc acc', check items acc = .ok acc' → acc' = g acc items)
    (ok : checkField name check obj acc = .ok acc') :
    acc' = g acc (itemsOf name (.object obj)) := by
  unfold checkField at ok
  cases found : (get obj name).bind Value.asArray with
  | none =>
    rw [found] at ok
    simp [itemsOf, Value.asObject, found, none_, Except.ok.inj ok]
  | some items =>
    rw [found] at ok
    simpa [itemsOf, Value.asObject, found] using spec items acc acc' ok

/-- A pass over the services of one place in a group. -/
def collectServices (jobId groupName : String) (acc : Injected) (items : List Value) : Injected :=
  (items.map fun service => (groupName, service)).foldl (collect jobId) acc

lemma checkServices_ok {groupName : String} (items : List Value) (acc acc' : Injected)
    (ok : checkServices jobId groupName items acc = .ok acc') :
    acc' = collectServices jobId groupName acc items := by
  rw [collectServices, List.foldl_map]
  exact foldlM_ok (fun service _ acc acc' => checkService_ok) ok

lemma checkTask_ok {groupName : String} {task : Value}
    (ok : checkTask jobId groupName task acc = .ok acc') :
    acc' = collectServices jobId groupName acc (itemsOf "Services" task) := by
  cases task with
  | object obj => exact checkField_ok (fun _ => rfl) checkServices_ok ok
  | _ => cases ok

lemma checkTaskGroup_ok {taskGroup : Value} (ok : checkTaskGroup jobId taskGroup acc = .ok acc') :
    acc' = (located taskGroup).foldl (collect jobId) acc := by
  cases taskGroup with
  | object obj =>
    unfold checkTaskGroup at ok
    simp only [Value.asObject, okOr, bind, Except.bind] at ok
    cases named : (get obj "Name").bind Value.asStr with
    | none =>
      rw [named] at ok
      cases ok
    | some groupName =>
      simp only [named] at ok
      cases own : checkField "Services" (checkServices jobId groupName) obj acc with
      | error e =>
        rw [own] at ok
        cases ok
      | ok mid =>
        rw [own] at ok
        have services := checkField_ok (fun _ => rfl) checkServices_ok own
        have tasks := checkField_ok (g := fun acc tasks => tasks.foldl (fun acc task =>
          collectServices jobId groupName acc (itemsOf "Services" task)) acc) (fun _ => rfl)
          (fun tasks acc acc' => foldlM_ok fun task _ acc acc' => checkTask_ok) ok
        have listed : located (.object obj) = (servicesOfGroup (.object obj)).map
            fun service => (groupName, service) := by
          simp [located, Value.asObject, named]
        rw [tasks, services, listed, servicesOfGroup, List.map_append, List.foldl_append,
          List.map_flatMap, List.foldl_flatMap]
        rfl
  | _ => cases ok

/-- The traversal of an accepted job collects from all its services in one pass. -/
lemma checkJob_ok {job : Value} {registrations : List JobRegistration}
    (ok : checkJob job = .ok registrations) : ∃ jobId, jobIdOf job = some jobId ∧
      registrations = (((itemsOf "TaskGroups" job).flatMap located).foldl (collect jobId)
        ⟨[], []⟩).registrations := by
  cases job with
  | object obj =>
    unfold checkJob at ok
    simp only [Value.asObject, okOr, bind, Except.bind] at ok
    cases id : ((get obj "ID").bind Value.asStr).or ((get obj "Name").bind Value.asStr) with
    | none =>
      rw [id] at ok
      cases ok
    | some jobId =>
      simp only [id] at ok
      cases found : (get obj "TaskGroups").bind Value.asArray with
      | none =>
        rw [found] at ok
        cases ok
      | some taskGroups =>
        simp only [found] at ok
        cases checked : taskGroups.foldlM (fun acc taskGroup => checkTaskGroup jobId taskGroup acc)
            ⟨[], []⟩ with
        | error e =>
          rw [checked] at ok
          cases ok
        | ok acc =>
          rw [checked] at ok
          have pass := foldlM_ok (fun taskGroup _ acc acc' => checkTaskGroup_ok) checked
          have items : itemsOf "TaskGroups" (.object obj) = taskGroups := by
            simp [itemsOf, Value.asObject, found]
          refine ⟨jobId, id, ?_⟩
          rw [items, List.foldl_flatMap, ← pass]
          exact (Except.ok.inj ok).symm
  | _ => cases ok

/-- What was collected is what was seen, at its first occurrences. -/
structure Collected (jobId : String) (seen : List JobRegistration) (acc : Injected) : Prop where
  same : ∀ serviceName groupName, (jobId, serviceName, groupName) ∈ acc.seen ↔
    ⟨⟨jobId⟩, ⟨serviceName⟩, groupName⟩ ∈ acc.registrations
  first : FirstOccurrences seen acc.registrations

lemma Collected.register {seen : List JobRegistration} (inv : Collected jobId seen acc)
    (serviceName groupName : String) :
    Collected jobId (seen ++ [⟨⟨jobId⟩, ⟨serviceName⟩, groupName⟩])
      (acc.register jobId serviceName groupName) := by
  unfold Injected.register
  split_ifs with known
  · exact ⟨inv.same, inv.first.again ((inv.same _ _).mp known)⟩
  · refine ⟨fun other group => ?_, inv.first.new fun mem => known ((inv.same _ _).mpr mem)⟩
    simp [inv.same, or_comm]

lemma collected_pass (pass : List (String × Value)) {seen : List JobRegistration}
    (inv : Collected jobId seen acc) :
    Collected jobId (seen ++ (pass.filter fun p => hasTraefikEnabled (itemsOf "Tags" p.2)).map
      fun p => ⟨⟨jobId⟩, ⟨nameOf p.2⟩, p.1⟩) (pass.foldl (collect jobId) acc) := by
  induction pass generalizing acc seen with
  | nil => simpa using inv
  | cons p pass ih =>
    rw [List.foldl_cons]
    by_cases enabled : hasTraefikEnabled (itemsOf "Tags" p.2) = true
    · rw [List.filter_cons, if_pos enabled, List.map_cons, List.append_cons]
      simp only [collect, enabled, if_true]
      exact ih (inv.register _ _)
    · rw [List.filter_cons, if_neg enabled]
      simp only [collect, enabled]
      exact ih inv

/-- Every enabled service of the job is reported once, at its first occurrence. -/
theorem injectNscaleTags_registrations (job out : Value) (fileProviderService : String)
    (registrations : List JobRegistration)
    (done : injectNscaleTags job fileProviderService = .ok (out, registrations)) :
    ∃ jobId, jobIdOf job = some jobId ∧
      FirstOccurrences (occurrences jobId job) registrations ∧
      ∀ reg ∈ registrations, reg.jobId.val = jobId := by
  obtain ⟨checked, -⟩ := injectNscaleTags_ok done
  obtain ⟨jobId, id, rfl⟩ := checkJob_ok checked
  have start : Collected jobId [] ⟨[], []⟩ := ⟨by simp, .nil⟩
  have first := (collected_pass ((itemsOf "TaskGroups" job).flatMap located) start).first
  rw [List.nil_append] at first
  refine ⟨jobId, id, first, fun reg mem => ?_⟩
  obtain ⟨p, -, rfl⟩ := List.mem_map.mp ((first.mem reg).mp mem)
  rfl

end Pass

/-- The ID is no string, and services repeat in a group and in another group. -/
def shopJob : Value :=
  let service name := Value.object [("Name", .string name), ("Tags", .array
    [.string "traefik.enable=true", .string "traefik.http.routers.shop.rule=x"])]
  .object [("ID", .number "7"), ("Name", .string "shop"), ("TaskGroups", .array [
    .object [("Name", .string "main"), ("Services", .array [service "web"]),
      ("Tasks", .array [.object [("Services", .array [service "api", service "web"])]])],
    .object [("Name", .string "edge"), ("Services", .array [service "web"])]])]

theorem shopJob_registrations : ∃ out, injectNscaleTags shopJob "nscale" = .ok (out,
      [⟨⟨"shop"⟩, ⟨"web"⟩, "main"⟩, ⟨⟨"shop"⟩, ⟨"api"⟩, "main"⟩, ⟨⟨"shop"⟩, ⟨"web"⟩, "edge"⟩]) ∧
    ∃ jobId, jobIdOf shopJob = some jobId ∧
      FirstOccurrences (occurrences jobId shopJob) [⟨⟨"shop"⟩, ⟨"web"⟩, "main"⟩,
        ⟨⟨"shop"⟩, ⟨"api"⟩, "main"⟩, ⟨⟨"shop"⟩, ⟨"web"⟩, "edge"⟩] ∧
      ∀ reg ∈ ([⟨⟨"shop"⟩, ⟨"web"⟩, "main"⟩, ⟨⟨"shop"⟩, ⟨"api"⟩, "main"⟩,
        ⟨⟨"shop"⟩, ⟨"web"⟩, "edge"⟩] : List JobRegistration), reg.jobId.val = jobId := by
  have checked : checkJob shopJob = .ok [⟨⟨"shop"⟩, ⟨"web"⟩, "main"⟩,
      ⟨⟨"shop"⟩, ⟨"api"⟩, "main"⟩, ⟨⟨"shop"⟩, ⟨"web"⟩, "edge"⟩] := by decide +kernel
  have done : injectNscaleTags shopJob "nscale" = .ok (mapServices (route "nscale") shopJob,
      [⟨⟨"shop"⟩, ⟨"web"⟩, "main"⟩, ⟨⟨"shop"⟩, ⟨"api"⟩, "main"⟩, ⟨⟨"shop"⟩, ⟨"web"⟩, "edge"⟩]) := by
    rw [injectNscaleTags_eq, checked]
    rfl
  exact ⟨_, done, injectNscaleTags_registrations shopJob _ "nscale" _ done⟩

end NScale.JobMutator
