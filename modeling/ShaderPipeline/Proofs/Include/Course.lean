import ShaderPipeline.Proofs.Active
import ShaderPipeline.Proofs.Include.Unfolding

/-! The course of an expansion: what becomes of each line, and of the lines of each text that is
spliced, whatever the providers answer. Every expansion has exactly one, so that its recursion
ends, and the chains of active includes bound how deep it goes. -/

namespace ShaderPipeline.Include

open Text

/-- What becomes of lines in order. A splice holds the course of the text that it asked for. -/
inductive Course where
  | done
  | keep (line : Text) (rest : Course)
  | mark (problem : Problem) (rest : Course)
  | splice (name : String) (inside rest : Course)

namespace Course

/-- The lines that are left in the end. -/
def lines : Course → List Text
  | done => []
  | keep line rest => line :: rest.lines
  | mark problem rest => problem.marker :: rest.lines
  | splice _ inside rest => inside.lines ++ rest.lines

/-- The problems that are marked. -/
def problems : Course → List Problem
  | done => []
  | keep _ rest => rest.problems
  | mark problem rest => problem :: rest.problems
  | splice _ inside rest => inside.problems ++ rest.problems

/-- The active chain of each call, of a course that is taken inside `chain`. -/
def chains (chain : List String) : Course → List (List String)
  | done => [chain]
  | keep _ rest => rest.chains chain
  | mark _ rest => rest.chains chain
  | splice name inside rest => inside.chains (chain ++ [name]) ++ rest.chains chain

/-- How many calls stand inside each other. -/
def depth : Course → Nat
  | done => 1
  | keep _ rest => rest.depth
  | mark _ rest => rest.depth
  | splice _ inside rest => max (inside.depth + 1) rest.depth

/-- Calls stand no deeper inside each other than their chains are long. -/
theorem depth_le {course : Course} {chain : List String} {bound : Nat}
    (short : ∀ active ∈ course.chains chain, active.length ≤ bound) :
    chain.length + course.depth ≤ bound + 1 := by
  induction course generalizing chain with
  | done =>
    have here := short chain (List.mem_singleton.mpr rfl)
    exact Nat.add_le_add_right here 1
  | keep line rest ih => exact ih short
  | mark problem rest ih => exact ih short
  | splice name inside rest ihInside ih =>
    obtain ⟨within, behind⟩ := List.forall_mem_append.mp short
    have deeper := ihInside within
    have follows := ih behind
    rw [List.length_append, List.length_singleton] at deeper
    rw [depth]
    omega

end Course

/-- The record of a marked problem. -/
def Problem.record (problem : Problem) : Record := .warning problem.message

/-- The course that lines take inside `chain`, with the counts of calls before and after it. No
bound on the recursion is part of it. -/
inductive Runs (providers : Providers) :
    List String → CallCounts → List (Text × Text) → Course → CallCounts → Prop
  | done {chain : List String} {calls : CallCounts} : Runs providers chain calls [] .done calls
  | keep {chain : List String} {calls after : CallCounts} {line code : Text}
      {rest : List (Text × Text)} {course : Course} (plain : LineKind.ofLine code = .plain)
      (follows : Runs providers chain calls rest course after) :
      Runs providers chain calls ((line, code) :: rest) (.keep line course) after
  | mark {chain : List String} {calls after : CallCounts} {line code : Text} {problem : Problem}
      {rest : List (Text × Text)} {course : Course} (here : problem.At providers chain line code)
      (follows : Runs providers chain calls rest course after) :
      Runs providers chain calls ((line, code) :: rest) (.mark problem course) after
  | splice {chain : List String} {calls between after : CallCounts} {line code : Text}
      {name : String} {provider : Provider} {rest : List (Text × Text)} {inner course : Course}
      (asks : LineKind.ofLine code = .splice name) (idle : name ∉ chain)
      (found : providers[name]? = some provider)
      (inside : Runs providers (chain ++ [name]) (calls.ask name).2
        (linesWithCode (provider (calls.ask name).1)) inner between)
      (follows : Runs providers chain between rest course after) :
      Runs providers chain calls ((line, code) :: rest) (.splice name inner course) after

theorem Problem.At.unique {providers : Providers} {chain : List String} {line code : Text}
    {first second : Problem} (here : first.At providers chain line code)
    (there : second.At providers chain line code) : first = second := by
  cases here <;> cases there <;> simp_all

/-- An include line that is not spliced has a problem. -/
theorem exists_problem {providers : Providers} {chain : List String} (line : Text) {code : Text}
    {name : String} (asks : LineKind.ofLine code = .splice name)
    (stuck : name ∈ chain ∨ providers[name]? = none) :
    ∃ problem : Problem, problem.At providers chain line code := by
  by_cases active : name ∈ chain
  · exact ⟨_, .recursive asks active⟩
  · exact ⟨_, .missing asks active (stuck.resolve_left active)⟩

/-- Whatever the providers answer and whomever they include, the lines take a course that ends. -/
theorem exists_runs (providers : Providers) (chain : List String) (pairs : List (Text × Text))
    (calls : CallCounts) : ∃ course after, Runs providers chain calls pairs course after := by
  induction chain, pairs using expandLines.induct providers generalizing calls with
  | case1 chain => exact ⟨_, _, .done⟩
  | case2 chain line code rest inside following =>
    cases kind : LineKind.ofLine code with
    | plain =>
      obtain ⟨course, after, follows⟩ := following calls
      exact ⟨_, _, .keep kind follows⟩
    | malformed =>
      obtain ⟨course, after, follows⟩ := following calls
      exact ⟨_, _, .mark (.malformed kind) follows⟩
    | splice name =>
      by_cases stuck : name ∈ chain ∨ providers[name]? = none
      · obtain ⟨problem, here⟩ := exists_problem line kind stuck
        obtain ⟨course, after, follows⟩ := following calls
        exact ⟨_, _, .mark here follows⟩
      · obtain ⟨idle, registered⟩ := not_or.mp stuck
        obtain ⟨provider, found⟩ := Option.ne_none_iff_exists'.mp registered
        obtain ⟨inner, between, within⟩ :=
          inside name idle provider found (calls.ask name).1 (calls.ask name).2
        obtain ⟨course, after, follows⟩ := following between
        exact ⟨_, _, .splice kind idle found within follows⟩

namespace Runs

variable {providers : Providers} {chain : List String} {calls after : CallCounts}
  {pairs : List (Text × Text)} {course : Course}

theorem unique (runs : Runs providers chain calls pairs course after) {other : Course}
    {last : CallCounts} (again : Runs providers chain calls pairs other last) :
    other = course ∧ last = after := by
  induction runs generalizing other last with
  | done =>
    cases again
    exact ⟨rfl, rfl⟩
  | keep plain follows ih =>
    cases again with
    | keep _ others =>
      obtain ⟨rfl, rfl⟩ := ih others
      exact ⟨rfl, rfl⟩
    | mark here _ => exact absurd plain here.not_plain
    | splice asks => rw [asks] at plain; cases plain
  | mark here follows ih =>
    cases again with
    | keep plain _ => exact absurd plain here.not_plain
    | mark there others =>
      obtain rfl := here.unique there
      obtain ⟨rfl, rfl⟩ := ih others
      exact ⟨rfl, rfl⟩
    | splice asks idle found => cases here <;> simp_all
  | splice asks idle found inside follows ihInside ih =>
    cases again with
    | keep plain _ => rw [asks] at plain; cases plain
    | mark here _ => cases here <;> simp_all
    | splice again _ same within others =>
      obtain rfl := LineKind.splice.inj (asks.symm.trans again)
      obtain rfl := Option.some.inj (found.symm.trans same)
      obtain ⟨rfl, rfl⟩ := ihInside within
      obtain ⟨rfl, rfl⟩ := ih others
      exact ⟨rfl, rfl⟩

/-- Expansion answers the lines of the course and leaves a record of each problem. -/
theorem run_expandLines (runs : Runs providers chain calls pairs course after) :
    (expandLines providers chain pairs).run calls =
      ⟨(course.lines, after), course.problems.map Problem.record⟩ := by
  induction runs with
  | done => rw [expandLines]; rfl
  | keep plain follows ih =>
    rw [expandLines, plain]
    apply Logged.ext <;> simp [ih, Course.lines, Course.problems]
  | mark here follows ih =>
    rw [expandLines]
    cases here with
    | malformed asks =>
      apply Logged.ext <;>
        simp [asks, Expanding.mark, ih, Course.lines, Course.problems, Problem.record, Logged.warn]
    | recursive asks active =>
      apply Logged.ext <;>
        simp [asks, active, Expanding.mark, ih, Course.lines, Course.problems, Problem.record,
          Logged.warn]
    | missing asks idle absent =>
      simp only [asks, idle, ↓reduceDIte]
      split
      next =>
        apply Logged.ext <;>
          simp [Expanding.mark, ih, Course.lines, Course.problems, Problem.record, Logged.warn]
      next provider found => rw [absent] at found; cases found
  | splice asks idle found inside follows ihInside ih =>
    rw [expandLines, asks]
    simp only [idle, ↓reduceDIte]
    split
    next missing => rw [found] at missing; cases missing
    next provider same =>
      obtain rfl := Option.some.inj (same.symm.trans found)
      apply Logged.ext <;> simp [ihInside, ih, Course.lines, Course.problems]

/-- Each call inside a chain of different registered names has such a chain. -/
theorem chains_registered (runs : Runs providers chain calls pairs course after)
    (nodup : chain.Nodup) (registered : ∀ name ∈ chain, name ∈ providers) :
    ∀ active ∈ course.chains chain, active.Nodup ∧ ∀ name ∈ active, name ∈ providers := by
  induction runs with
  | done =>
    rintro active member
    obtain rfl := List.mem_singleton.mp member
    exact ⟨nodup, registered⟩
  | keep plain follows ih => exact ih nodup registered
  | mark here follows ih => exact ih nodup registered
  | @splice chain _ _ _ _ _ name _ _ _ _ asks idle found inside follows ihInside ih =>
    have present : name ∈ providers := mem_of_found found
    have longer : (chain ++ [name]).Nodup :=
      nodup.append (List.nodup_singleton name) (List.disjoint_singleton.mpr idle)
    have all : ∀ other ∈ chain ++ [name], other ∈ providers :=
      List.forall_mem_append.mpr ⟨registered, by simpa using present⟩
    exact List.forall_mem_append.mpr ⟨ihInside longer all, ih nodup registered⟩

theorem expand_eq {text : Text} {registry : Registry}
    (runs : Runs registry.providers [] registry.calls (linesWithCode text) course after) :
    expand text registry = ⟨(joinLines course.lines, { registry with calls := after }),
      course.problems.map Problem.record⟩ := by
  apply Logged.ext <;> simp [expand, runs.run_expandLines]

end Runs

/-- A chain of different registered names is no longer than there are names. -/
theorem length_le_size {registry : Registry} {chain : List String} (nodup : chain.Nodup)
    (registered : ∀ name ∈ chain, name ∈ registry.providers) :
    chain.length ≤ registry.size :=
  length_le_size_of_nodup nodup registered

/-- Expansion ends for every text and every registry, whatever its providers answer: it takes
exactly one course. No chain of active includes holds a name twice or a name that is not
registered, so that calls stand at most one deeper inside each other than there are names. -/
theorem expand_ends (text : Text) (registry : Registry) :
    ∃ course after,
      Runs registry.providers [] registry.calls (linesWithCode text) course after ∧
      (∀ other last, Runs registry.providers [] registry.calls (linesWithCode text) other last →
        other = course ∧ last = after) ∧
      expand text registry = ⟨(joinLines course.lines, { registry with calls := after }),
        course.problems.map Problem.record⟩ ∧
      (∀ chain ∈ course.chains [],
        chain.Nodup ∧ ∀ name ∈ chain, registry.contains name = true) ∧
      course.depth ≤ registry.size + 1 := by
  obtain ⟨course, after, runs⟩ := exists_runs registry.providers [] (linesWithCode text)
    registry.calls
  have chains := runs.chains_registered List.nodup_nil (by simp)
  have depth : ([] : List String).length + course.depth ≤ registry.size + 1 :=
    Course.depth_le fun chain active =>
      length_le_size (chains chain active).1 (chains chain active).2
  refine ⟨course, after, runs, fun _ _ again => runs.unique again, runs.expand_eq, ?_, ?_⟩
  · intro chain active
    obtain ⟨nodup, registered⟩ := chains chain active
    exact ⟨nodup, fun name member => Std.TreeMap.contains_iff_mem.mpr (registered name member)⟩
  · simpa using depth

end ShaderPipeline.Include
