import NScale.JobRegistry
import NScale.Text

/-!
# The keys in etcd

The key prefix of a deployment and what lies under it. Several deployments may share an etcd;
whether one of them finds keys of another depends on their prefixes alone.
-/
namespace NScale.Etcd
open JobRegistry Text

def defaultPrefix : String := "/nscale/registrations"

/-- `normalize_prefix`. -/
def normalizePrefix (prefix_ : String) : String :=
  let trimmed := (trim prefix_.toList).rdropWhile (· = '/')
  if trimmed.isEmpty then defaultPrefix
  else if trimmed.head? = some '/' then .ofList trimmed
  else "/" ++ .ofList trimmed

example : normalizePrefix "/nscale/registrations/" = "/nscale/registrations" ∧
    normalizePrefix "nscale/registrations" = "/nscale/registrations" ∧
    normalizePrefix "   " = "/nscale/registrations" := by decide +kernel

/-- A prefix as it is kept in the client. -/
structure KeyPrefix where
  text : String
  rooted : text.toList.head? = some '/'
  unslashed : text.toList.getLast? ≠ some '/'
  deriving DecidableEq

lemma rdropWhile_slash (l : List Char) : (l.rdropWhile (· = '/')).getLast? ≠ some '/' := by
  intro last
  have stops := List.rdropWhile_last_not (· = '/') l
  cases at_ : l.rdropWhile (· = '/') with
  | nil => simp [at_] at last
  | cons c rest =>
    have ne : l.rdropWhile (· = '/') ≠ [] := by simp [at_]
    refine stops ne ?_
    rw [List.getLast?_eq_some_getLast ne, Option.some.injEq] at last
    simp [last]

/-- `EtcdClient::new`. -/
def KeyPrefix.new (prefix_ : String) : KeyPrefix where
  text := normalizePrefix prefix_
  rooted := by
    simp only [normalizePrefix]
    split_ifs with blank rooted
    · decide
    · simpa using rooted
    · rw [String.toList_append]
      rfl
  unslashed := by
    simp only [normalizePrefix]
    have stops := rdropWhile_slash (trim prefix_.toList)
    split_ifs with blank rooted
    · decide
    · simpa using stops
    · cases at_ : (trim prefix_.toList).rdropWhile (· = '/') with
      | nil => simp [at_] at blank
      | cons c rest => simpa [at_] using stops

def Space.dir : Space → String
  | .jobs => "jobs"
  | .services => "services"

/-- `jobs_prefix` and `services_prefix`. -/
def KeyPrefix.dir (p : KeyPrefix) (space : Space) : String := p.text ++ "/" ++ Space.dir space ++ "/"

/-- `job_key` and `service_key`. -/
def KeyPrefix.key (p : KeyPrefix) (space : Space) (name : String) : String := p.dir space ++ name

/-- The keys that a request `with_prefix` returns. -/
def within (dir key : String) : Bool := dir.toList.isPrefixOf key.toList

variable {p q : KeyPrefix} {space space' : Space} {name name' key dir : String}

lemma within_iff : within dir key = true ↔ ∃ name, dir ++ name = key := by
  rw [within, List.isPrefixOf_iff_prefix]
  constructor
  · rintro ⟨rest, same⟩
    exact ⟨.ofList rest, String.ext (by simpa using same)⟩
  · rintro ⟨name, rfl⟩
    exact ⟨name.toList, by simp⟩

lemma key_strictMono (p : KeyPrefix) (space : Space) : StrictMono (p.key space) := by
  intro a b lt
  rw [String.lt_iff_toList_lt] at lt ⊢
  simp only [KeyPrefix.key, String.toList_append]
  exact List.append_left_lt lt

lemma slash_not_mem_dir (space : Space) : '/' ∉ (Space.dir space).toList := by
  cases space <;> decide

/-! ## Deployments side by side -/

/-- A deployment finds keys of the other one among its own. -/
def KeyPrefix.Sees (p q : KeyPrefix) : Prop :=
  ∃ space space' name, within (p.dir space) (q.key space' name) = true

/-- The prefix `q` is inside of a space of `p`. -/
def KeyPrefix.Contains (p q : KeyPrefix) : Prop :=
  ∃ space, within (p.dir space) (q.text ++ "/") = true

instance (p q : KeyPrefix) : Decidable (p.Contains q) :=
  decidable_of_iff (within (p.dir .jobs) (q.text ++ "/") = true ∨
      within (p.dir .services) (q.text ++ "/") = true) (by
    constructor
    · rintro (jobs | services)
      · exact ⟨.jobs, jobs⟩
      · exact ⟨.services, services⟩
    · rintro ⟨_ | _, inside⟩
      · exact .inl inside
      · exact .inr inside)

lemma dir_toList (p : KeyPrefix) (space : Space) :
    (p.dir space).toList = (p.text ++ "/").toList ++ ((Space.dir space).toList ++ ['/']) := by
  rw [KeyPrefix.dir, String.toList_append, String.toList_append, List.append_assoc]
  rfl

/-- Different spaces of different deployments have different directories. -/
lemma dir_inj (same : p.dir space = q.dir space') : p = q ∧ space = space' := by
  obtain ⟨text, _, _⟩ := p
  obtain ⟨text', _, _⟩ := q
  have ends := congrArg (fun dir => dir.toList.reverse) same
  cases space <;> cases space' <;>
    simp [KeyPrefix.dir, Space.dir, String.toList_inj] at ends
  · exact ⟨by simp [ends], rfl⟩
  · exact ⟨by simp [ends], rfl⟩

/-- A directory that begins as another one lies in the prefix of the other. -/
lemma contains_of_dir_begins {rest : List Char}
    (same : (p.dir space).toList ++ rest = (q.dir space').toList) :
    p.dir space = q.dir space' ∨ p.Contains q := by
  rw [dir_toList q] at same
  rcases List.append_eq_append_iff.mp same with ⟨more, split, -⟩ | ⟨more, split, left⟩
  · refine .inr ⟨space, within_iff.mpr ⟨.ofList more, String.ext ?_⟩⟩
    simpa using split.symm
  · rcases List.eq_nil_or_concat more with rfl | ⟨init, last, rfl⟩
    · refine .inr ⟨space, within_iff.mpr ⟨"", String.ext ?_⟩⟩
      simpa using split
    · rcases List.eq_nil_or_concat rest with rfl | ⟨init', last', rfl⟩
      · refine .inl (String.ext ?_)
        rw [dir_toList q, left, split, List.append_nil]
      · -- a slash inside of the name of a space
        rw [List.concat_eq_append] at split left
        rw [List.concat_eq_append, ← List.append_assoc] at left
        have ends : last = '/' := by
          have slash := congrArg List.getLast? split
          rw [dir_toList p, ← List.append_assoc, ← List.append_assoc, List.getLast?_concat,
            List.getLast?_concat] at slash
          exact (Option.some.inj slash).symm
        obtain ⟨name, -⟩ := List.append_inj' left rfl
        refine absurd ?_ (slash_not_mem_dir space')
        rw [name, ends]
        simp

/-- Two deployments with different prefixes keep apart exactly if neither has its prefix inside of a
space of the other. -/
theorem sees_iff (apart : p ≠ q) :
    (p.Sees q ∨ q.Sees p) ↔ (p.Contains q ∨ q.Contains p) := by
  have meets {p q : KeyPrefix} (apart : p ≠ q) (sees : p.Sees q) : p.Contains q ∨ q.Contains p := by
    obtain ⟨space, space', name, inside⟩ := sees
    have left : (p.dir space).toList <+: (q.key space' name).toList := List.isPrefixOf_iff_prefix.mp inside
    have right : (q.dir space').toList <+: (q.key space' name).toList := by simp [KeyPrefix.key]
    rcases List.prefix_or_prefix_of_prefix left right with ⟨rest, same⟩ | ⟨rest, same⟩
    · exact .inl ((contains_of_dir_begins same).resolve_left fun same => apart (dir_inj same).1)
    · exact .inr ((contains_of_dir_begins same).resolve_left fun same => apart (dir_inj same).1.symm)
  have seen {p q : KeyPrefix} (contains : p.Contains q) : p.Sees q := by
    obtain ⟨space, inside⟩ := contains
    obtain ⟨rest, same⟩ := within_iff.mp inside
    refine ⟨space, .jobs, "", within_iff.mpr ⟨rest ++ ("jobs" ++ "/"), ?_⟩⟩
    refine String.ext ?_
    rw [← String.append_assoc, same]
    simp [KeyPrefix.key, KeyPrefix.dir, Space.dir]
  constructor
  · rintro (sees | sees)
    · exact meets apart sees
    · exact (meets apart.symm sees).symm
  · exact Or.imp seen seen

end NScale.Etcd
