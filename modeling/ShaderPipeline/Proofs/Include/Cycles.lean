import ShaderPipeline.Proofs.Include.Course
import ShaderPipeline.Proofs.Include.FixedTexts

/-! The guard against recursive includes, for registries of fixed texts. It cuts exactly where the
includes of the source lead into a cycle, and where it never cuts, expansion is unfolding without
a guard. -/

namespace ShaderPipeline.Include

open Text

/-- One of the lines, given without comments, is an include of the registered `name`. -/
def Names (providers : Providers) (codes : List Text) (name : String) : Prop :=
  name ∈ providers ∧ ∃ code ∈ codes, LineKind.ofLine code = .splice name

/-- The text of the first name includes the second one. -/
def Includes (providers : Providers) (first second : String) : Prop :=
  ∃ text, providers[first]? = some (.fixed text) ∧
    Names providers (lines (stripComments text)) second

/-- Includes lead from the lines to a name that includes itself, alone or by way of others. -/
def ReachesCycle (providers : Providers) (codes : List Text) : Prop :=
  ∃ first name, Names providers codes first ∧
    Relation.ReflTransGen (Includes providers) first name ∧
    Relation.TransGen (Includes providers) name name

/-- Unfolding without a guard: each include line gives way to the unfolding of the text it names,
however often that text is unfolded elsewhere. -/
inductive FullyUnfolds (providers : Providers) : List (Text × Text) → List Text → Prop
  | nil : FullyUnfolds providers [] []
  | keep {line code : Text} {rest : List (Text × Text)} {kept : List Text}
      (plain : LineKind.ofLine code = .plain) (follows : FullyUnfolds providers rest kept) :
      FullyUnfolds providers ((line, code) :: rest) (line :: kept)
  | malformed {line code : Text} {rest : List (Text × Text)} {kept : List Text}
      (asks : LineKind.ofLine code = .malformed) (follows : FullyUnfolds providers rest kept) :
      FullyUnfolds providers ((line, code) :: rest) ((Problem.malformed (trim line)).marker :: kept)
  | missing {line code : Text} {name : String} {rest : List (Text × Text)} {kept : List Text}
      (asks : LineKind.ofLine code = .splice name) (absent : providers[name]? = none)
      (follows : FullyUnfolds providers rest kept) :
      FullyUnfolds providers ((line, code) :: rest) ((Problem.missing name).marker :: kept)
  | splice {line code text : Text} {name : String} {rest : List (Text × Text)}
      {inner kept : List Text} (asks : LineKind.ofLine code = .splice name)
      (found : providers[name]? = some (.fixed text))
      (inside : FullyUnfolds providers (linesWithCode text) inner)
      (follows : FullyUnfolds providers rest kept) :
      FullyUnfolds providers ((line, code) :: rest) (inner ++ kept)

/-- The guard has cut a recursion somewhere in the course. -/
def Course.Cuts (course : Course) : Prop :=
  ∃ name chain, Problem.recursive name chain ∈ course.problems

theorem Names.of_asks {providers : Providers} {pair : Text × Text} {rest : List (Text × Text)}
    {name : String} (registered : name ∈ providers) (asks : LineKind.ofLine pair.2 = .splice name) :
    Names providers ((pair :: rest).map Prod.snd) name :=
  ⟨registered, pair.2, List.mem_cons_self, asks⟩

theorem Names.of_rest {providers : Providers} {pair : Text × Text} {rest : List (Text × Text)}
    {name : String} (names : Names providers (rest.map Prod.snd) name) :
    Names providers ((pair :: rest).map Prod.snd) name := by
  obtain ⟨registered, code, member, asks⟩ := names
  exact ⟨registered, code, List.mem_cons_of_mem _ member, asks⟩

/-- A name that the first line does not include is included by the rest. -/
theorem Names.rest {providers : Providers} {pair : Text × Text} {rest : List (Text × Text)}
    {name : String} (names : Names providers ((pair :: rest).map Prod.snd) name)
    (other : name ∈ providers → LineKind.ofLine pair.2 ≠ .splice name) :
    Names providers (rest.map Prod.snd) name := by
  obtain ⟨registered, code, member, asks⟩ := names
  rcases List.mem_cons.mp member with rfl | later
  · exact (other registered asks).elim
  · exact ⟨registered, code, later, asks⟩

theorem ReachesCycle.of_rest {providers : Providers} {pair : Text × Text}
    {rest : List (Text × Text)} (reaches : ReachesCycle providers (rest.map Prod.snd)) :
    ReachesCycle providers ((pair :: rest).map Prod.snd) := by
  obtain ⟨first, name, names, leads, cycle⟩ := reaches
  exact ⟨first, name, names.of_rest, leads, cycle⟩

section

variable {registry : Registry} (fixed : registry.Fixed) {chain : List String}
  {calls after : CallCounts} {pairs : List (Text × Text)} {course : Course}

include fixed

/-- Every name of the chain leads to each name that is included inside the chain, so that a cut
closes a cycle. -/
theorem Runs.reachesCycle (runs : Runs registry.providers chain calls pairs course after)
    (registered : ∀ name ∈ chain, name ∈ registry.providers)
    (leads : ∀ earlier ∈ chain, ∀ name, Names registry.providers (pairs.map Prod.snd) name →
      Relation.TransGen (Includes registry.providers) earlier name)
    (cuts : course.Cuts) : ReachesCycle registry.providers (pairs.map Prod.snd) := by
  obtain ⟨cut, closed, member⟩ := cuts
  induction runs with
  | done => cases member
  | keep plain follows ih =>
    exact (ih registered (fun earlier active name names => leads earlier active name names.of_rest)
      member).of_rest
  | mark here follows ih =>
    rcases List.mem_cons.mp member with rfl | later
    · cases here with
      | recursive asks active =>
        have present := registered cut active
        exact ⟨cut, cut, .of_asks present asks, .refl, leads cut active cut (.of_asks present asks)⟩
    · exact (ih registered
        (fun earlier active name names => leads earlier active name names.of_rest) later).of_rest
  | @splice chain _ _ _ _ _ name provider _ _ _ asks idle found inside follows ihInside ih =>
    rcases List.mem_append.mp member with within | later
    · -- Inside the text, its own name joins the chain, and it leads where the text leads.
      obtain ⟨text, rfl⟩ := fixed name provider found
      have present := mem_of_found found
      have includes (other : String)
          (named : Names registry.providers ((linesWithCode text).map Prod.snd) other) :
          Includes registry.providers name other :=
        ⟨text, found, map_snd_linesWithCode text ▸ named⟩
      have chained : ∀ other ∈ chain ++ [name], other ∈ registry.providers :=
        List.forall_mem_append.mpr ⟨registered, by simpa using present⟩
      have further : ∀ earlier ∈ chain ++ [name], ∀ other,
          Names registry.providers ((linesWithCode text).map Prod.snd) other →
            Relation.TransGen (Includes registry.providers) earlier other := by
        intro earlier active other named
        rcases List.mem_append.mp active with outer | own
        · exact (leads earlier outer name (.of_asks present asks)).tail (includes other named)
        · rw [List.mem_singleton.mp own]
          exact .single (includes other named)
      obtain ⟨first, last, named, way, cycle⟩ := ihInside chained further within
      exact ⟨name, last, .of_asks present asks, way.head (includes first named), cycle⟩
    · exact (ih registered
        (fun earlier active other names => leads earlier active other names.of_rest) later).of_rest

/-- A course without a cut is an unfolding without a guard. -/
theorem Runs.fullyUnfolds (runs : Runs registry.providers chain calls pairs course after)
    (uncut : ¬ course.Cuts) : FullyUnfolds registry.providers pairs course.lines := by
  induction runs with
  | done => exact .nil
  | keep plain follows ih => exact .keep plain (ih uncut)
  | mark here follows ih =>
    have rest := ih fun ⟨name, chain, later⟩ => uncut ⟨name, chain, List.mem_cons_of_mem _ later⟩
    cases here with
    | malformed asks => exact .malformed asks rest
    | recursive asks active => exact (uncut ⟨_, _, List.mem_cons_self⟩).elim
    | missing asks idle absent => exact .missing asks absent rest
  | splice asks idle found inside follows ihInside ih =>
    obtain ⟨text, rfl⟩ := fixed _ _ found
    have inner := ihInside fun ⟨name, chain, within⟩ =>
      uncut ⟨name, chain, List.mem_append_left _ within⟩
    have rest := ih fun ⟨name, chain, later⟩ => uncut ⟨name, chain, List.mem_append_right _ later⟩
    exact .splice asks found inner rest

end

namespace FullyUnfolds

variable {providers : Providers} {pairs : List (Text × Text)} {kept : List Text}

theorem unique (unfolds : FullyUnfolds providers pairs kept) {other : List Text}
    (again : FullyUnfolds providers pairs other) : other = kept := by
  induction unfolds generalizing other with
  | nil =>
    cases again
    rfl
  | keep plain follows ih => cases again <;> simp_all
  | malformed asks follows ih => cases again <;> simp_all
  | missing asks absent follows ih => cases again <;> simp_all
  | splice asks found inside follows ihInside ih =>
    cases again with
    | splice again same within others =>
      obtain rfl := LineKind.splice.inj (asks.symm.trans again)
      obtain rfl := Provider.fixed_inj.mp (Option.some.inj (found.symm.trans same))
      rw [ihInside within, ih others]
    | _ => simp_all

/-- Where unfolding ends, so does every way along includes. -/
theorem acc (unfolds : FullyUnfolds providers pairs kept) {name : String}
    (names : Names providers (pairs.map Prod.snd) name) :
    Acc (Function.swap (Includes providers)) name := by
  induction unfolds generalizing name with
  | nil =>
    obtain ⟨_, code, member, _⟩ := names
    cases member
  | keep plain follows ih => exact ih (names.rest fun _ => by simp [plain])
  | malformed asks follows ih => exact ih (names.rest fun _ => by simp [asks])
  | missing asks absent follows ih =>
    refine ih (names.rest fun registered here => ?_)
    obtain rfl := LineKind.splice.inj (asks.symm.trans here)
    have present := Std.TreeMap.mem_iff_isSome_getElem?.mp registered
    simp [absent] at present
  | @splice _ _ text own _ _ _ asks found inside follows ihInside ih =>
    by_cases here : name = own
    · subst here
      refine .intro name fun other ⟨same, found', included⟩ => ihInside ?_
      obtain rfl := Provider.fixed_inj.mp (Option.some.inj (found.symm.trans found'))
      rwa [map_snd_linesWithCode]
    · exact ih (names.rest fun _ => by simp [asks, Ne.symm here])

theorem not_reachesCycle (unfolds : FullyUnfolds providers pairs kept) :
    ¬ ReachesCycle providers (pairs.map Prod.snd) := by
  rintro ⟨first, name, names, leads, cycle⟩
  exact not_cycle_of_acc (unfolds.acc names) leads cycle

end FullyUnfolds

/-- The guard against recursion is exact. It cuts if and only if the includes of the source lead
into a cycle, and the lines that are left are those of the unfolding without a guard, which ends
if and only if there is no such cycle. -/
theorem expand_cuts_iff {registry : Registry} (fixed : registry.Fixed) (source : Text) :
    ∃ course after,
      Runs registry.providers [] registry.calls (linesWithCode source) course after ∧
      expand source registry = ⟨(joinLines course.lines, { registry with calls := after }),
        course.problems.map Problem.record⟩ ∧
      (course.Cuts ↔ ReachesCycle registry.providers (lines (stripComments source))) ∧
      ∀ unfolded, FullyUnfolds registry.providers (linesWithCode source) unfolded ↔
        ¬ ReachesCycle registry.providers (lines (stripComments source)) ∧
          unfolded = course.lines := by
  obtain ⟨course, after, runs⟩ := exists_runs registry.providers [] (linesWithCode source)
    registry.calls
  have cycle : course.Cuts → ReachesCycle registry.providers (lines (stripComments source)) :=
    map_snd_linesWithCode source ▸ runs.reachesCycle fixed (by simp) (by simp)
  have acyclic {unfolded : List Text}
      (unfolds : FullyUnfolds registry.providers (linesWithCode source) unfolded) :
      ¬ ReachesCycle registry.providers (lines (stripComments source)) :=
    map_snd_linesWithCode source ▸ unfolds.not_reachesCycle
  have cuts (reaches : ReachesCycle registry.providers (lines (stripComments source))) :
      course.Cuts := by
    by_contra uncut
    exact acyclic (runs.fullyUnfolds fixed uncut) reaches
  refine ⟨course, after, runs, runs.expand_eq, ⟨cycle, cuts⟩, fun unfolded => ?_⟩
  constructor
  · intro unfolds
    have uncut : ¬ course.Cuts := fun cut => acyclic unfolds (cycle cut)
    exact ⟨acyclic unfolds, (runs.fullyUnfolds fixed uncut).unique unfolds⟩
  · rintro ⟨free, rfl⟩
    exact runs.fullyUnfolds fixed fun cut => free (cycle cut)

/-- A text that is included along two ways, and one that includes itself. -/
def sharedTexts : List (String × Text) :=
  [("left", "#include <base>\nl".toList), ("right", "r\n#include \"base\"".toList),
    ("base", "b".toList), ("loop", "#include \"loop\"".toList)]

def sharedSource : Text := "#include \"left\"\n#include \"right\"".toList

def loopSource : Text := "#include \"loop\"".toList

private theorem fullyUnfolds_shared : FullyUnfolds (Registry.ofTexts sharedTexts).providers
    (linesWithCode sharedSource) [['b'], ['l'], ['r'], ['b']] := by
  have fixed := Registry.fixed_ofTexts sharedTexts
  have left : (Registry.ofTexts sharedTexts).providers["left"]? =
      some (.fixed "#include <base>\nl".toList) := fixed.provider_eq (by decide +kernel)
  have right : (Registry.ofTexts sharedTexts).providers["right"]? =
      some (.fixed "r\n#include \"base\"".toList) := fixed.provider_eq (by decide +kernel)
  have base : (Registry.ofTexts sharedTexts).providers["base"]? = some (.fixed ['b']) :=
    fixed.provider_eq (by decide +kernel)
  have below : FullyUnfolds (Registry.ofTexts sharedTexts).providers (linesWithCode ['b']) [['b']] :=
    .keep (by decide +kernel) .nil
  have within : FullyUnfolds (Registry.ofTexts sharedTexts).providers
      (linesWithCode "#include <base>\nl".toList) [['b'], ['l']] :=
    .splice (by decide +kernel) base below (.keep (by decide +kernel) .nil)
  have behind : FullyUnfolds (Registry.ofTexts sharedTexts).providers
      (linesWithCode "r\n#include \"base\"".toList) [['r'], ['b']] :=
    .keep (by decide +kernel) (.splice (by decide +kernel) base below .nil)
  exact .splice (by decide +kernel) left within (.splice (by decide +kernel) right behind .nil)

private theorem reachesCycle_loop : ReachesCycle (Registry.ofTexts sharedTexts).providers
    (lines (stripComments loopSource)) := by
  have found : (Registry.ofTexts sharedTexts).providers["loop"]? = some (.fixed loopSource) :=
    (Registry.fixed_ofTexts sharedTexts).provider_eq (by decide +kernel)
  have names : Names (Registry.ofTexts sharedTexts).providers (lines (stripComments loopSource))
      "loop" := ⟨mem_of_found found, loopSource, by decide +kernel, by decide +kernel⟩
  exact ⟨"loop", "loop", names, .refl, .single ⟨loopSource, found, names⟩⟩

theorem expand_cuts_iff_shared :
    (Registry.ofTexts sharedTexts).Fixed ∧
      ¬ ReachesCycle (Registry.ofTexts sharedTexts).providers
        (lines (stripComments sharedSource)) ∧
      (expand sharedSource (.ofTexts sharedTexts)).value.1 = "b\nl\nr\nb".toList ∧
      ∃ course after, Runs (Registry.ofTexts sharedTexts).providers []
        (Registry.ofTexts sharedTexts).calls (linesWithCode loopSource) course after ∧
          course.Cuts := by
  have fixed := Registry.fixed_ofTexts sharedTexts
  obtain ⟨course, after, runs, answer, _, unfolded⟩ := expand_cuts_iff fixed sharedSource
  obtain ⟨free, left⟩ := (unfolded _).mp fullyUnfolds_shared
  have joined : joinLines [['b'], ['l'], ['r'], ['b']] = "b\nl\nr\nb".toList := by decide +kernel
  obtain ⟨loop, last, loops, _, cuts, _⟩ := expand_cuts_iff fixed loopSource
  refine ⟨fixed, free, ?_, loop, last, loops, cuts.mpr reachesCycle_loop⟩
  rw [answer, ← left]
  exact joined

end ShaderPipeline.Include
