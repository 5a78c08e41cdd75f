import BuildCapture.Names.Lemmas
import BuildCapture.Summary.Basic
import Mathlib.Algebra.GroupWithZero.Nat
set_option autoImplicit false

/-!
The jobs that use an artifact, grouped. An id is the coordinates with colons between them, so where
no coordinate holds a colon it names them all (`Artifact.id_eq_iff`), although a classifier may be
missing in the middle. Entries are added one at a time, each behind what stands under its id already
(`DependencySummary.get?_addJobs`); so every group has the jobs of its entries in their order, and
none is lost (`DependencySummary.grouped_by_coordinates`).
-/

namespace BuildCapture

namespace NameMap

variable {α : Type}

theorem mem_names_iff {m : NameMap α} {name : String} :
    name ∈ m.names ↔ (m.get? name).isSome = true := by
  rw [get?, List.lookup_isSome_iff]
  simp [names]

theorem sum_insertEntry (size : α → Nat) (name : String) (value : α) {l : List (String × α)}
    (sorted : l.Pairwise (·.1 < ·.1)) :
    ((insertEntry name value l).map fun e => size e.2).sum + ((l.lookup name).map size).getD 0 =
      (l.map fun e => size e.2).sum + size value := by
  induction l with
  | nil => simp [insertEntry]
  | cons e rest ih =>
    obtain ⟨other, kept⟩ := e
    obtain ⟨least, sorted⟩ := List.pairwise_cons.1 sorted
    rw [insertEntry, lookup_cons_entry]
    split
    case isTrue before =>
      -- The names are sorted, so one that goes before the first was not there.
      have absent : rest.lookup name = none :=
        lookup_eq_none_of_lt fun e mem => String.lt_trans before (least e mem)
      have ne : name ≠ other := fun same => String.lt_irrefl _ (same ▸ before)
      simp only [if_neg ne, absent, List.map_cons, List.sum_cons, Option.map_none, Option.getD_none]
      omega
    case isFalse =>
      have later := ih sorted
      split
      case isTrue =>
        simp only [List.map_cons, List.sum_cons, Option.map_some, Option.getD_some]
        omega
      case isFalse =>
        simp only [List.map_cons, List.sum_cons]
        omega

theorem sum_insert (size : α → Nat) (m : NameMap α) (name : String) (value : α) :
    ((m.insert name value).entries.map fun e => size e.2).sum + ((m.get? name).map size).getD 0 =
      (m.entries.map fun e => size e.2).sum + size value :=
  sum_insertEntry size name value m.sorted

end NameMap

namespace Artifact

/-- The coordinates hold no colon. -/
structure ColonFree (a : Artifact) : Prop where
  groupId : ':' ∉ a.groupId.toList
  artifactId : ':' ∉ a.artifactId.toList
  type : ∀ type, a.type = some type → ':' ∉ type.toList
  classifier : ∀ classifier, a.classifier = some classifier → ':' ∉ classifier.toList
  version : ':' ∉ a.version.toList

/-- The Maven coordinates are the same. No type means `jar`, and an empty classifier means none. -/
def SameCoordinates (a b : Artifact) : Prop :=
  a.groupId = b.groupId ∧ a.artifactId = b.artifactId ∧
    a.type.getD "jar" = b.type.getD "jar" ∧ a.classifier.getD "" = b.classifier.getD "" ∧
    a.version = b.version

instance (a b : Artifact) : Decidable (a.SameCoordinates b) :=
  inferInstanceAs (Decidable (_ ∧ _))

theorem classifier?_eq_filter (a : Artifact) :
    a.classifier? = Option.filter (· ≠ "") (some (a.classifier.getD "")) := by
  unfold classifier?
  cases a.classifier <;> simp [Option.filter]

theorem getD_classifier? (a : Artifact) : a.classifier?.getD "" = a.classifier.getD "" := by
  unfold classifier?
  cases a.classifier with
  | none => rfl
  | some s => by_cases empty : s = "" <;> simp [Option.filter, empty]

theorem classifier?_eq_iff {a b : Artifact} :
    a.classifier? = b.classifier? ↔ a.classifier.getD "" = b.classifier.getD "" := by
  constructor
  · intro same
    rw [← getD_classifier?, same, getD_classifier?]
  · intro same
    rw [classifier?_eq_filter, same, ← classifier?_eq_filter]

theorem coordinates_eq_iff {a b : Artifact} :
    a.coordinates = b.coordinates ↔ a.SameCoordinates b := by
  have classifiers : a.classifier?.toList = b.classifier?.toList ↔
      a.classifier.getD "" = b.classifier.getD "" := by
    rw [← classifier?_eq_iff]
    cases a.classifier? <;> cases b.classifier? <;> simp
  simp only [coordinates, SameCoordinates, typeOrJar, List.cons_append, List.nil_append,
    List.cons.injEq, List.append_singleton_inj, classifiers]

theorem ColonFree.not_mem {a : Artifact} (h : a.ColonFree) {s : String} (mem : s ∈ a.coordinates) :
    ':' ∉ s.toList := by
  simp only [coordinates, List.cons_append, List.nil_append, List.mem_cons, List.mem_append,
    Option.mem_toList, List.not_mem_nil, or_false] at mem
  rcases mem with rfl | rfl | rfl | named | rfl
  · exact h.groupId
  · exact h.artifactId
  · unfold typeOrJar
    cases named : a.type with
    | none => decide
    | some type => exact h.type type named
  · exact h.classifier s (Option.eq_some_of_filter_eq_some named)
  · exact h.version

theorem ColonFree.splitOn_id {a : Artifact} (h : a.ColonFree) :
    a.id.toList.splitOn ':' = a.coordinates.map String.toList := by
  have id : a.id.toList = [':'].intercalate (a.coordinates.map String.toList) :=
    String.toList_intercalate
  rw [id]
  refine List.splitOn_intercalate ':' ?_ (by simp [coordinates])
  intro word mem
  obtain ⟨s, named, rfl⟩ := List.mem_map.1 mem
  exact h.not_mem named

/-- Without a colon in them, the coordinates can be told from the id. -/
theorem id_eq_iff {a b : Artifact} (ha : a.ColonFree) (hb : b.ColonFree) :
    a.id = b.id ↔ a.SameCoordinates b := by
  rw [← coordinates_eq_iff]
  constructor
  · intro same
    have words : a.coordinates.map String.toList = b.coordinates.map String.toList := by
      rw [← ha.splitOn_id, ← hb.splitOn_id, same]
    exact (List.map_inj_right fun _ _ => String.toList_inj.1).1 words
  · intro same
    rw [id, id, same]

end Artifact

namespace DependencySummary

theorem get?_addJobs (jobs : NameMap (List String)) (entry : ArtifactJobs) (key : String) :
    (addJobs jobs entry).get? key =
      if entry.artifact.id = key then some ((jobs.get? key).getD [] ++ entry.jobs)
      else jobs.get? key := by
  rw [addJobs, NameMap.get?_insert]
  by_cases same : entry.artifact.id = key
  · rw [if_pos same, if_pos same.symm, same]
  · rw [if_neg same, if_neg (Ne.symm same)]

/-- Under every id stand the jobs of the entries with that id, in their order. -/
theorem get?_foldl_addJobs (jobs : NameMap (List String)) (entries : List ArtifactJobs)
    (key : String) :
    (entries.foldl addJobs jobs).get? key =
      if ∃ e ∈ entries, e.artifact.id = key then
        some ((jobs.get? key).getD [] ++
          (entries.filter (·.artifact.id = key)).flatMap ArtifactJobs.jobs)
      else jobs.get? key := by
  induction entries generalizing jobs with
  | nil => simp
  | cons e entries ih =>
    rw [List.foldl_cons, ih, get?_addJobs]
    by_cases here : e.artifact.id = key
    · by_cases later : ∃ e ∈ entries, e.artifact.id = key
      · simp [here, later]
      · have none : entries.filter (·.artifact.id = key) = [] := by simpa using later
        simp [here, later, none]
    · simp [here]

theorem count_addJobs (jobs : NameMap (List String)) (entry : ArtifactJobs) :
    ((addJobs jobs entry).entries.map (·.2.length)).sum =
      (jobs.entries.map (·.2.length)).sum + entry.jobs.length := by
  have counted := NameMap.sum_insert List.length jobs entry.artifact.id
    ((jobs.get? entry.artifact.id).getD [] ++ entry.jobs)
  rw [List.length_append] at counted
  unfold addJobs
  cases before : jobs.get? entry.artifact.id with
  | none =>
    simp only [before, Option.map_none, Option.getD_none, List.length_nil] at counted ⊢
    omega
  | some present =>
    simp only [before, Option.map_some, Option.getD_some] at counted ⊢
    omega

theorem count_foldl_addJobs (jobs : NameMap (List String)) (entries : List ArtifactJobs) :
    ((entries.foldl addJobs jobs).entries.map (·.2.length)).sum =
      (jobs.entries.map (·.2.length)).sum + (entries.map (·.jobs.length)).sum := by
  induction entries generalizing jobs with
  | nil => simp
  | cons e entries ih =>
    rw [List.foldl_cons, ih, count_addJobs, List.map_cons, List.sum_cons, Nat.add_assoc]

/-- The jobs are grouped by coordinates: the groups have the ids of the entries' artifacts, which
are the same for the same coordinates only, and each group has the jobs of all entries with its
coordinates in the order of the report. So there are as many jobs in the groups as in the
entries. -/
theorem grouped_by_coordinates (r : MavenReport)
    (plain : ∀ e ∈ r.consumerJobsByArtifact, e.artifact.ColonFree) :
    let entries := r.consumerJobsByArtifact
    let groups := (ofReport (some (.dependency r))).consumerJobsByArtifact
    (∀ key, key ∈ groups.names ↔ ∃ e ∈ entries, e.artifact.id = key) ∧
    (∀ e ∈ entries, ∀ f ∈ entries,
      e.artifact.id = f.artifact.id ↔ e.artifact.SameCoordinates f.artifact) ∧
    (∀ e ∈ entries, groups.get? e.artifact.id =
      some ((entries.filter fun f => e.artifact.SameCoordinates f.artifact).flatMap (·.jobs))) ∧
    (groups.entries.map (·.2.length)).sum = (entries.map (·.jobs.length)).sum := by
  intro entries groups
  have ids (e) (he : e ∈ entries) (f) (hf : f ∈ entries) :
      e.artifact.id = f.artifact.id ↔ e.artifact.SameCoordinates f.artifact :=
    Artifact.id_eq_iff (plain e he) (plain f hf)
  have found (key : String) : groups.get? key =
      if ∃ e ∈ entries, e.artifact.id = key then
        some ((entries.filter (·.artifact.id = key)).flatMap ArtifactJobs.jobs)
      else none := get?_foldl_addJobs ∅ entries key
  refine ⟨fun key => ?keys, ids, fun e he => ?jobs, ?count⟩
  case keys =>
    rw [NameMap.mem_names_iff, found]
    split <;> simp_all
  case jobs =>
    have same : entries.filter (·.artifact.id = e.artifact.id) =
        entries.filter fun f => e.artifact.SameCoordinates f.artifact := by
      refine List.filter_congr fun f hf => ?_
      rw [decide_eq_decide, eq_comm, ids e he f hf]
    rw [found, if_pos ⟨e, he, rfl⟩, same]
  case count =>
    have counted := count_foldl_addJobs ∅ entries
    rwa [show ((∅ : NameMap (List String)).entries.map (·.2.length)).sum = 0 from rfl,
      Nat.zero_add] at counted

def library (type classifier : Option String) : Artifact where
  groupId := "com.acme"
  artifactId := "api"
  version := "2.0.1"
  baseVersion := none
  type := type
  classifier := classifier
  extension := none
  file := none
  snapshot := false
  repositoryUrl := none

def libraryReport : MavenReport where
  deployedArtifacts := []
  generatedArtifacts := []
  consumerJobs := []
  producerBuilds := []
  dependencies := []
  consumerJobsByArtifact := [
    ⟨library none (some ""), ["team/consumer", "team/nightly"]⟩,
    ⟨library none (some "sources"), []⟩,
    ⟨library (some "jar") none, ["team/other"]⟩]

theorem library_grouped :
    (∀ e ∈ libraryReport.consumerJobsByArtifact, e.artifact.ColonFree) ∧
    (ofReport (some (.dependency libraryReport))).consumerJobsByArtifact.get?
      "com.acme:api:jar:2.0.1" = some ["team/consumer", "team/nightly", "team/other"] ∧
    "com.acme:api:jar:sources:2.0.1" ∈
      (ofReport (some (.dependency libraryReport))).consumerJobsByArtifact.names := by
  have plain : ∀ e ∈ libraryReport.consumerJobsByArtifact, e.artifact.ColonFree := by
    intro e mem
    simp only [libraryReport, List.mem_cons, List.not_mem_nil, or_false] at mem
    rcases mem with rfl | rfl | rfl <;> constructor <;> simp [library]
  obtain ⟨keys, -, jobs, -⟩ := grouped_by_coordinates libraryReport plain
  refine ⟨plain, ?_, (keys _).2 ⟨_, .tail _ (.head _), by decide⟩⟩
  exact jobs ⟨library none (some ""), ["team/consumer", "team/nightly"]⟩ (.head _)

end DependencySummary

end BuildCapture
