import ShaderPipeline.Proofs.Include.FixedTexts
import ShaderPipeline.Proofs.Include.Seams

/-! Expansion before and after the removal of comments. The two show the same lines where every
include line and every end of a spliced text lies outside block comments, and a text whose kept
lines leave a comment open hides what follows it. -/

namespace ShaderPipeline

/-- The registry whose texts have no comments. -/
def Registry.stripped (registry : Registry) : Registry :=
  { registry with
    providers := registry.providers.map fun _ provider earlier =>
      Text.stripComments (provider earlier) }

namespace Include

open Text

/-- Includes may be expanded before or after comments are removed: the same lines show. -/
def Commutes (source : Text) (registry : Registry) : Prop :=
  shown (stripComments (expand source registry).value.1) =
    shown (expand (stripComments source) registry.stripped).value.1

/-- No problem is admitted: every include is well formed, registered and not recursive. -/
def Problem.never (_ : Problem) : Prop := False

/-- Without comments, the same includes are reached and the code of the same lines is kept. -/
theorem Unfolds.stripped {registry : Registry} {chain : List String}
    {pairs kept : List (Text × Text)}
    (unfolds : Unfolds Problem.never registry.providers chain pairs kept) :
    Unfolds Problem.never registry.stripped.providers chain
      (pairs.map fun pair => (pair.2, pair.2)) (kept.map fun pair => (pair.2, pair.2)) := by
  induction unfolds with
  | nil => exact .nil
  | keep plain follows ih => exact .keep plain ih
  | mark here admitted follows ih => exact admitted.elim
  | @splice chain line code text name inner rest kept asks idle found inside follows ihInside ih =>
    rw [List.map_cons, List.map_append]
    have without : registry.stripped.providers[name]? = some (.fixed (stripComments text)) := by
      rw [Registry.stripped, Std.TreeMap.getElem?_map, found]
      rfl
    exact .splice asks idle without (by rwa [linesWithCode_stripComments]) ih

/-- The two show the same exactly when the kept lines show, one behind the other, what each of them
shows in its own text. -/
theorem Unfolds.commutes_iff {source : Text} {registry : Registry} {kept : List (Text × Text)}
    (unfolds : Unfolds Problem.never registry.providers [] (linesWithCode source) kept) :
    Commutes source registry ↔
      shownLines (codesFrom .code (kept.map Prod.fst)) = shownLines (kept.map Prod.snd) := by
  have without := unfolds.stripped
  rw [← linesWithCode_stripComments] at without
  have own : (kept.map fun pair => (pair.2, pair.2)).map Prod.fst = kept.map Prod.snd :=
    List.map_map
  rw [Commutes, unfolds.value_expand, without.value_expand, own,
    shown_stripComments_kept_iff (unfolds.single (single_linesWithCode source))]

/-! ### What a library may leave open -/

/-- Behind the include line of a library, a source keeps its lines behind the library's. -/
theorem Unfolds.of_library {admits : Problem → Prop} {providers : Providers} {name : String}
    {library source : Text} (quotable : Quotable name)
    (registered : providers[name]? = some (.fixed library)) (plain : Plain library)
    (own : Plain source) :
    Unfolds admits providers [] (linesWithCode (Stage.preludeLine name ++ '\n' :: source))
      (linesWithCode library ++ linesWithCode source) := by
  rw [quotable.linesWithCode_append]
  exact .splice quotable.asks List.not_mem_nil registered (plain.unfolds _ _ _)
    (own.unfolds _ _ _)

/-- A library leaves every source behind it alone if and only if the lines that are taken of it
leave no comment open. -/
theorem commutes_library_iff {registry : Registry} {name : String} {library : Text}
    (quotable : Quotable name) (registered : registry.providers[name]? = some (.fixed library))
    (plain : Plain library) :
    (∀ source, Plain source → Commutes (Stage.preludeLine name ++ '\n' :: source) registry) ↔
      Closed (resolved library) := by
  have behind {source : Text} (own : Plain source) :
      Commutes (Stage.preludeLine name ++ '\n' :: source) registry ↔
        shownLines (codesFrom (CommentState.code.afterLines (ownLines library))
          (ownLines source)) = shownLines ((linesWithCode source).map Prod.snd) := by
    rw [(Unfolds.of_library quotable registered plain own).commutes_iff, List.map_append,
      codesFrom_append, shownLines_append, List.map_append, shownLines_append,
      (ownCodes_linesWithCode library).shownLines_eq, List.append_cancel_left_eq]
    rfl
  rw [closed_resolved_iff]
  constructor
  · intro commutes
    have mark : Plain [';'] := by decide +kernel
    exact afterLines_eq_code_of_mark ((behind mark).mp (commutes _ mark))
  · intro closed source own
    rw [behind own, closed]
    exact (ownCodes_linesWithCode source).shownLines_eq

/-- Expansion commutes with the removal of comments exactly when each kept line shows its own code
among the kept lines. It does so when every splice lies outside block comments and no spliced text
leaves one open, and for a library in front of all sources only then. -/
theorem expand_commutes_with_stripping {source : Text} {registry : Registry}
    {kept : List (Text × Text)}
    (unfolds : Unfolds Problem.never registry.providers [] (linesWithCode source) kept) :
    (Commutes source registry ↔
      shownLines (codesFrom .code (kept.map Prod.fst)) = shownLines (kept.map Prod.snd)) ∧
    (SplicesOutside .code (linesWithCode source) →
      (∀ (name : String) (text : Text), registry.providers[name]? = some (.fixed text) →
        Seamless text) → Commutes source registry) ∧
    ∀ (name : String) (library : Text), Quotable name →
      registry.providers[name]? = some (.fixed library) → Plain library →
        ((∀ body, Plain body → Commutes (Stage.preludeLine name ++ '\n' :: body) registry) ↔
          Closed (resolved library)) := by
  refine ⟨unfolds.commutes_iff, fun outside texts => ?_,
    fun name library quotable registered plain => commutes_library_iff quotable registered plain⟩
  obtain ⟨own, _⟩ := unfolds.ownCodes (fun _ never => never.elim) texts outside
    (ownCodes_linesWithCode source)
  exact unfolds.commutes_iff.mpr own.shownLines_eq

def innerText : Text := "float h; // low".toList

/-- A text that includes another one before a comment over two lines. -/
def outerText : Text := "#include <inner>\nfloat f; /* one\ntwo */ float g;".toList

def nestedTexts : List (String × Text) := [("outer", outerText), ("inner", innerText)]

def nestedSource : Text := "#include \"outer\" // all\nmain /* end */".toList

private theorem unfolds_nestedSource : ∃ kept, Unfolds Problem.never
    (Registry.ofTexts nestedTexts).providers [] (linesWithCode nestedSource) kept := by
  have fixed := Registry.fixed_ofTexts nestedTexts
  have outer : (Registry.ofTexts nestedTexts).providers["outer"]? = some (.fixed outerText) :=
    fixed.provider_eq (by decide +kernel)
  have inner : (Registry.ofTexts nestedTexts).providers["inner"]? = some (.fixed innerText) :=
    fixed.provider_eq (by decide +kernel)
  have outerLines : linesWithCode outerText = ("#include <inner>".toList,
      "#include <inner>".toList) :: (linesWithCode outerText).tail := by decide +kernel
  have sourceLines : linesWithCode nestedSource = ("#include \"outer\" // all".toList,
      "#include \"outer\" ".toList) :: (linesWithCode nestedSource).tail := by decide +kernel
  have unfolded : ∃ kept, Unfolds Problem.never (Registry.ofTexts nestedTexts).providers ["outer"]
      (linesWithCode outerText) kept := by
    rw [outerLines]
    exact ⟨_, .splice (by decide +kernel) (by decide) inner
      (Plain.unfolds (by decide +kernel) _ _ _) (.of_plain (by decide +kernel))⟩
  obtain ⟨kept, unfolded⟩ := unfolded
  rw [sourceLines]
  exact ⟨_, .splice (by decide +kernel) List.not_mem_nil outer unfolded
    (.of_plain (by decide +kernel))⟩

theorem expand_commutes_with_stripping_nested :
    (∃ kept, Unfolds Problem.never (Registry.ofTexts nestedTexts).providers []
      (linesWithCode nestedSource) kept) ∧
      SplicesOutside .code (linesWithCode nestedSource) ∧
      (∀ entry ∈ nestedTexts, Seamless entry.2) ∧
      Commutes nestedSource (.ofTexts nestedTexts) := by
  have outside : SplicesOutside .code (linesWithCode nestedSource) := by decide +kernel
  have seamless : ∀ entry ∈ nestedTexts, Seamless entry.2 := by decide +kernel
  obtain ⟨kept, unfolds⟩ := unfolds_nestedSource
  exact ⟨⟨kept, unfolds⟩, outside, seamless,
    (expand_commutes_with_stripping unfolds).2.1 outside (Registry.forall_ofTexts seamless)⟩

/-- The last line of the library only ends its comment. It has no code, so expansion drops it, and
the comment hides the source. -/
theorem dropped_comment_end_hides_source :
    let registry := Registry.ofTexts [("lib", "/* a\n*/".toList)]
    let source := "#include \"lib\"\nmain".toList
    registry.Fixed ∧ Closed source ∧
      (∀ (name : String) (text : Text), registry.providers[name]? = some (.fixed text) →
        Closed text) ∧
      (∃ kept, Unfolds Problem.never registry.providers [] (linesWithCode source) kept) ∧
      ¬ Commutes source registry := by
  intro registry source
  have quotable : Quotable "lib" := ⟨by decide, by decide, by decide, by decide⟩
  have fixed : registry.Fixed := Registry.fixed_ofTexts _
  have registered : registry.providers["lib"]? = some (.fixed "/* a\n*/".toList) :=
    fixed.provider_eq (by decide +kernel)
  have unfolds : Unfolds Problem.never registry.providers [] (linesWithCode source)
      (linesWithCode "/* a\n*/".toList ++ linesWithCode "main".toList) :=
    .of_library quotable registered (by decide +kernel) (by decide +kernel)
  refine ⟨fixed, by decide +kernel, Registry.forall_ofTexts (by decide +kernel), ⟨_, unfolds⟩, ?_⟩
  rw [unfolds.commutes_iff]
  decide +kernel

end Include

end ShaderPipeline
