import Mathlib.Data.Finmap
import ShaderPipeline.Proofs.Defines.Entries

/-! Sets of definitions as finite maps. Two sets and two maps go through the same operations, and
nothing that a caller sees tells a set from its map; sets with equal maps are the same set. Nothing
is assumed about the numbering of names but that it can be read back and that symbols are
ordered. -/

namespace ShaderPipeline.Defines

/-- Definitions by name, apart from how they are kept. -/
abbrev Table := Finmap fun _ : String => String

/-- An operation on one of two sets. -/
inductive Operation where
  | set (name value : String)
  | define (name : String)
  | remove (name : String)
  | ofList (definitions : List (String × String))
  /-- Copies the other set into this one. -/
  | merge
  deriving DecidableEq, Repr

namespace Operation

variable {σ : Type} [Interner σ] [Ord σ]

/-- What an operation answers, and what it makes of its own set beside the other one. -/
def onSet : Operation → (own other : Defines σ) → Option Bool × Defines σ
  | .set name value, own, _ => (none, own.set name value)
  | .define name, own, _ => (none, own.define name)
  | .remove name, own, _ => Prod.map some id (own.remove name)
  | .ofList definitions, _, _ => (none, .ofList definitions)
  | .merge, own, other => (none, own.merge other)

/-- The same of a map. -/
def onTable : Operation → (own other : Table) → Option Bool × Table
  | .set name value, own, _ => (none, own.insert name value)
  | .define name, own, _ => (none, own.insert name "")
  | .remove name, own, _ => (some (decide (name ∈ own)), own.erase name)
  | .ofList definitions, _, _ =>
    (none, definitions.foldl (fun table entry => table.insert entry.1 entry.2) ∅)
  | .merge, own, other => (none, other ∪ own)

/-- The strings that an operation gives a symbol to. -/
def interns : Operation → List String
  | .set name value => [name, value]
  | .define name => [name, ""]
  | .remove _ | .merge => []
  | .ofList definitions => definitions.flatMap fun entry => [entry.1, entry.2]

end Operation

inductive Side where
  | left
  | right
  deriving DecidableEq, Repr

def Side.other : Side → Side
  | .left => .right
  | .right => .left

/-- One step of a history of two sets. -/
structure Step where
  side : Side
  operation : Operation
  deriving DecidableEq, Repr

section History

variable {α : Type} (apply : Operation → (own other : α) → Option Bool × α)

def answer (sets : Side → α) (step : Step) : Option Bool :=
  (apply step.operation (sets step.side) (sets step.side.other)).1

def after (sets : Side → α) (step : Step) : Side → α :=
  Function.update sets step.side (apply step.operation (sets step.side) (sets step.side.other)).2

/-- The two sets after a history that starts with empty ones. -/
def run (empty : α) (steps : List Step) : Side → α := steps.foldl (after apply) fun _ => empty

end History

/-- The strings that a history gives symbols to. -/
def interned (steps : List Step) : List String := steps.flatMap fun step => step.operation.interns

private theorem flatMap_pair_injective {σ : Type} {first second : List (σ × σ)}
    (same : (first.flatMap fun entry => [entry.1, entry.2]) =
      second.flatMap fun entry => [entry.1, entry.2]) : first = second := by
  induction first generalizing second with
  | nil =>
    cases second with
    | nil => rfl
    | cons entry rest => simp at same
  | cons entry rest ih =>
    cases second with
    | nil => simp at same
    | cons other others =>
      simp only [List.flatMap_cons, List.cons_append, List.nil_append, List.cons.injEq] at same
      obtain ⟨name, value, tail⟩ := same
      rw [Prod.ext name value, ih tail]

/-- Only equal sets are equal to every hasher. One that keeps all that it takes in tells others
apart. -/
theorem eq_of_hashInto_eq {σ : Type} {first second : Defines σ}
    (same : ∀ (η : Type) (hasher : Hasher σ η) (state : η),
      first.hashInto hasher state = second.hashInto hasher state) : first = second := by
  let recorder : Hasher σ (List σ) := ⟨fun state _ => state, fun state symbol => state ++ [symbol]⟩
  have recorded (entries : List (σ × σ)) (state : List σ) :
      entries.foldl (fun state entry => recorder.symbol (recorder.symbol state entry.1) entry.2)
        state = state ++ entries.flatMap fun entry => [entry.1, entry.2] := by
    induction entries generalizing state with
    | nil => simp
    | cons entry rest ih => rw [List.foldl_cons, ih, List.flatMap_cons]; simp [recorder]
  have entries := same _ recorder []
  rw [hashInto, hashInto, recorded, recorded] at entries
  cases first
  cases second
  exact congrArg Defines.mk (flatMap_pair_injective entries)

variable {σ : Type} [Interner σ]

/-- The symbol of a name, if it has been given one. -/
def symbol? (known : List String) (name : String) : Option σ :=
  if name ∈ known then some (intern name) else none

variable [Ord σ]

/-- A lookup that gives no symbol to a name without one. -/
def find? (known : List String) (name : String) (defines : Defines σ) : Option String :=
  (symbol? known name).bind fun key => (lookup? key defines.entries).map resolve

/-- A removal that gives no symbol to a name without one. -/
def discard (known : List String) (name : String) (defines : Defines σ) : Bool × Defines σ :=
  match symbol? known name with
  | none => (false, defines)
  | some key => ((lookup? key defines.entries).isSome, ⟨eraseEntry key defines.entries⟩)

/-- A set holds the definitions of a map, under symbols of `known` strings. -/
structure Holds (known : List String) (defines : Defines σ) (table : Table) : Prop where
  sorted : Sorted defines.entries
  named : ∀ entry ∈ defines.entries, ∃ name ∈ known, ∃ value ∈ known,
    entry = (intern name, intern value)
  get? : ∀ name, defines.get? name = table.lookup name

/-- What a caller sees of a set is what the map tells. -/
structure Agrees (known : List String) (defines : Defines σ) (table : Table) : Prop where
  get? : ∀ name, defines.get? name = table.lookup name
  contains : ∀ name, defines.contains name = true ↔ name ∈ table
  size : defines.size = table.keys.card
  isEmpty : defines.isEmpty = true ↔ table = ∅
  toList : ∀ name value, (name, value) ∈ defines.toList ↔ table.lookup name = some value
  distinct : (defines.toList.map Prod.fst).Nodup
  sorted : Sorted defines.entries
  find? : ∀ name, defines.find? known name = defines.get? name
  discard : ∀ name, defines.discard known name = defines.remove name

namespace Holds

variable {known : List String} {defines other : Defines σ} {table others : Table}

theorem empty (known : List String) : Holds known (Defines.empty : Defines σ) ∅ where
  sorted := List.Pairwise.nil
  named _ member := nomatch member
  get? _ := rfl

theorem mono {more : List String} (holds : Holds known defines table)
    (grown : known ⊆ more) :
    Holds more defines table where
  sorted := holds.sorted
  named entry member := by
    obtain ⟨name, knownName, value, knownValue, same⟩ := holds.named entry member
    exact ⟨name, grown knownName, value, grown knownValue, same⟩
  get? := holds.get?

variable [Std.LawfulEqOrd σ] [Std.TransOrd σ]

theorem set (holds : Holds known defines table) {name value : String}
    (nameKnown : name ∈ known) (valueKnown : value ∈ known) :
    Holds known (defines.set name value) (table.insert name value) where
  sorted := holds.sorted.insertEntry _ _
  named entry member := by
    rcases mem_insertEntry member with rfl | old
    · exact ⟨name, nameKnown, value, valueKnown, rfl⟩
    · exact holds.named entry old
  get? other := by
    by_cases same : other = name
    · subst same
      rw [Defines.get?, Defines.set, lookup?_insertEntry_self, Finmap.lookup_insert,
        Option.map_some, resolve_intern]
    · have apart : (intern other : σ) ≠ intern name := fun equal => same (intern_injective equal)
      rw [Finmap.lookup_insert_of_ne _ same, ← holds.get?, Defines.get?, Defines.set,
        lookup?_insertEntry_of_ne apart, Defines.get?]

theorem remove (holds : Holds known defines table) (name : String) :
    Holds known (defines.remove name).2 (table.erase name) where
  sorted := holds.sorted.eraseEntry _
  named entry member := holds.named entry ((eraseEntry_sublist _ _).subset member)
  get? other := by
    by_cases same : other = name
    · subst same
      rw [Defines.get?, Defines.remove, lookup?_eraseEntry_self _ holds.sorted,
        Finmap.lookup_erase, Option.map_none]
    · have apart : (intern other : σ) ≠ intern name := fun equal => same (intern_injective equal)
      rw [Finmap.lookup_erase_ne same, ← holds.get?, Defines.get?, Defines.remove,
        lookup?_eraseEntry_of_ne apart holds.sorted, Defines.get?]

theorem ofList {definitions : List (String × String)}
    (allKnown : ∀ entry ∈ definitions, entry.1 ∈ known ∧ entry.2 ∈ known) :
    Holds known (Defines.ofList definitions : Defines σ)
      (definitions.foldl (fun table entry => table.insert entry.1 entry.2) ∅) := by
  have grows (start : Defines σ) (table : Table) (holds : Holds known start table) :
      Holds known
        (definitions.foldl (fun defines entry => defines.set entry.1 entry.2) start)
        (definitions.foldl (fun table entry => table.insert entry.1 entry.2) table) := by
    induction definitions generalizing start table with
    | nil => exact holds
    | cons entry rest ih =>
      obtain ⟨nameKnown, valueKnown⟩ := allKnown entry List.mem_cons_self
      exact ih (fun other member => allKnown other (List.mem_cons_of_mem _ member)) _ _
        (holds.set nameKnown valueKnown)
  exact grows _ _ (empty known)

theorem merge (holds : Holds known defines table) (beside : Holds known other others) :
    Holds known (defines.merge other) (others ∪ table) where
  sorted := holds.sorted.merge _
  named := by
    have kept (entries more : List (σ × σ)) (entry : σ × σ)
        (member : entry ∈ more.foldl (fun entries entry => insertEntry entry.1 entry.2 entries)
          entries) : entry ∈ more ∨ entry ∈ entries := by
      induction more generalizing entries with
      | nil => exact .inr member
      | cons head rest ih =>
        rcases ih _ member with later | before
        · exact .inl (List.mem_cons_of_mem _ later)
        · rcases mem_insertEntry before with rfl | old
          · exact .inl List.mem_cons_self
          · exact .inr old
    intro entry member
    rcases kept _ _ _ member with copied | own
    · exact beside.named entry copied
    · exact holds.named entry own
  get? name := by
    have found : (defines.merge other).get? name = (other.get? name).or (defines.get? name) := by
      rw [Defines.get?, Defines.merge, lookup?_merge _ _ beside.sorted, Option.map_or]
      rfl
    rw [found, holds.get?, beside.get?]
    by_cases member : name ∈ others
    · obtain ⟨value, some⟩ := Finmap.mem_iff.mp member
      rw [Finmap.lookup_union_left member, some]
      rfl
    · rw [Finmap.lookup_union_right member, Finmap.lookup_eq_none.mpr member]
      rfl

theorem step (holds : Holds known defines table) (beside : Holds known other others)
    {operation : Operation} (allKnown : operation.interns ⊆ known) :
    Holds known (operation.onSet defines other).2 (operation.onTable table others).2 ∧
      (operation.onSet defines other).1 = (operation.onTable table others).1 := by
  cases operation with
  | set name value =>
    exact ⟨holds.set (allKnown (by simp [Operation.interns]))
      (allKnown (by simp [Operation.interns])), rfl⟩
  | define name =>
    exact ⟨holds.set (allKnown (by simp [Operation.interns]))
      (allKnown (by simp [Operation.interns])), rfl⟩
  | remove name =>
    refine ⟨holds.remove name, ?_⟩
    have answered : defines.contains name = decide (name ∈ table) := by
      rw [Defines.contains, holds.get?, Bool.eq_iff_iff, Finmap.lookup_isSome,
        decide_eq_true_iff]
    exact congrArg some answered
  | ofList definitions =>
    refine ⟨ofList fun entry member => ?_, rfl⟩
    constructor <;>
      exact allKnown (List.mem_flatMap.mpr ⟨entry, member, by simp⟩)
  | merge => exact ⟨holds.merge beside, rfl⟩

/-- What a set holds it holds under the symbols of the map's strings. -/
theorem mem_iff (holds : Holds known defines table) {name value : String} :
    (intern name, intern value) ∈ defines.entries ↔ table.lookup name = some value := by
  rw [← holds.sorted.lookup?_eq_some_iff, ← holds.get?, Defines.get?, Option.map_eq_some_iff]
  constructor
  · intro found
    exact ⟨_, found, resolve_intern value⟩
  · rintro ⟨symbol, found, read⟩
    obtain ⟨_, _, other, _, same⟩ := holds.named _ (holds.sorted.lookup?_eq_some_iff.mp found)
    rw [Prod.mk.injEq] at same
    rw [same.2, resolve_intern] at read
    rw [found, same.2, read]

theorem mem_toList (holds : Holds known defines table) (name value : String) :
    (name, value) ∈ defines.toList ↔ table.lookup name = some value := by
  rw [← holds.mem_iff, toList, List.mem_map]
  constructor
  · rintro ⟨entry, member, read⟩
    obtain ⟨own, _, ownValue, _, rfl⟩ := holds.named entry member
    simp only [resolve_intern, Prod.mk.injEq] at read
    rwa [← read.1, ← read.2]
  · intro member
    exact ⟨_, member, by simp [resolve_intern]⟩

omit [Std.TransOrd σ] in
theorem nodup_names (holds : Holds known defines table) :
    (defines.toList.map Prod.fst).Nodup := by
  rw [toList, List.map_map]
  refine List.pairwise_map.mpr (holds.sorted.imp_of_mem fun {first second} left right before => ?_)
  obtain ⟨name, _, _, _, rfl⟩ := holds.named first left
  obtain ⟨later, _, _, _, rfl⟩ := holds.named second right
  simp only [Function.comp_apply, resolve_intern]
  rintro rfl
  simp at before

theorem size_eq (holds : Holds known defines table) : defines.size = table.keys.card := by
  have names : (defines.toList.map Prod.fst).toFinset = table.keys := by
    ext name
    simp only [List.mem_toFinset, List.mem_map, Prod.exists, exists_and_right, exists_eq_right,
      holds.mem_toList, Finmap.mem_keys, Finmap.mem_iff]
  rw [← names, List.toFinset_card_of_nodup holds.nodup_names, List.length_map, toList,
    List.length_map, size]

/-- A name that has no symbol is not in the set. -/
theorem known_of_found (holds : Holds known defines table) {name : String} {symbol : σ}
    (found : lookup? (intern name) defines.entries = some symbol) : name ∈ known := by
  obtain ⟨own, ownKnown, _, _, same⟩ :=
    holds.named _ (holds.sorted.lookup?_eq_some_iff.mp found)
  rw [Prod.mk.injEq] at same
  rwa [intern_injective same.1]

theorem find?_eq (holds : Holds known defines table) (name : String) :
    defines.find? known name = defines.get? name := by
  by_cases member : name ∈ known
  · simp [find?, symbol?, member, Defines.get?]
  · cases found : lookup? (intern name) defines.entries with
    | none => simp [find?, symbol?, member, Defines.get?, found]
    | some symbol => exact absurd (holds.known_of_found found) member

theorem discard_eq (holds : Holds known defines table) (name : String) :
    defines.discard known name = defines.remove name := by
  by_cases member : name ∈ known
  · simp [discard, symbol?, member, Defines.remove, Defines.contains, Defines.get?]
  · cases found : lookup? (intern name) defines.entries with
    | none =>
      simp [discard, symbol?, member, Defines.remove, Defines.contains, Defines.get?, found,
        eraseEntry_of_lookup?_eq_none found]
    | some symbol => exact absurd (holds.known_of_found found) member

/-- Sets with equal maps are the same set. -/
theorem eq_iff {more : List String} (holds : Holds known defines table)
    (beside : Holds more other others) : defines = other ↔ table = others := by
  constructor
  · rintro rfl
    exact Finmap.ext_lookup fun name => by rw [← holds.get?, beside.get?]
  · rintro rfl
    have copies {known more : List String} {first second : Defines σ}
        (holds : Holds known first table) (beside : Holds more second table) (entry : σ × σ)
        (member : entry ∈ first.entries) : entry ∈ second.entries := by
      obtain ⟨name, _, value, _, rfl⟩ := holds.named entry member
      exact beside.mem_iff.mpr (holds.mem_iff.mp member)
    have same := holds.sorted.eq_of_mem_iff beside.sorted fun entry =>
      ⟨copies holds beside entry, copies beside holds entry⟩
    cases defines
    cases other
    exact congrArg Defines.mk same

theorem agrees (holds : Holds known defines table) : Agrees known defines table where
  get? := holds.get?
  contains name := by rw [Defines.contains, holds.get?, Finmap.lookup_isSome]
  size := holds.size_eq
  isEmpty := by
    rw [← holds.eq_iff (empty known), isEmpty, List.isEmpty_iff]
    cases defines
    simp [Defines.empty]
  toList := holds.mem_toList
  distinct := holds.nodup_names
  sorted := holds.sorted
  find? := holds.find?_eq
  discard := holds.discard_eq

end Holds

/-- Every history keeps the sets beside their maps. -/
theorem holds_run [Std.LawfulEqOrd σ] [Std.TransOrd σ] (steps : List Step) (side : Side) :
    Holds (interned steps) (run Operation.onSet (Defines.empty : Defines σ) steps side)
      (run Operation.onTable ∅ steps side) := by
  induction steps using List.reverseRecOn generalizing side with
  | nil => exact .empty _
  | append_singleton earlier step ih =>
    have grown : interned earlier ⊆ interned (earlier ++ [step]) := by
      simp [interned]
    have allKnown : step.operation.interns ⊆ interned (earlier ++ [step]) := by
      simp [interned]
    simp only [run, List.foldl_append, List.foldl_cons, List.foldl_nil] at ih ⊢
    rw [after, after]
    by_cases own : side = step.side
    · subst own
      rw [Function.update_self, Function.update_self]
      exact (((ih _).mono grown).step ((ih _).mono grown) allKnown).1
    · rw [Function.update_of_ne own, Function.update_of_ne own]
      exact (ih side).mono grown

/-- After every history the sets and their maps agree in what they tell and in what they answer next,
whatever other strings have symbols by then. Sets of any two histories are equal, and equal to every
hasher, if and only if their maps are equal. -/
theorem run_agrees_with_maps [Std.LawfulEqOrd σ] [Std.TransOrd σ] (steps : List Step) :
    (∀ known, interned steps ⊆ known → ∀ side,
      Agrees known (run Operation.onSet (Defines.empty : Defines σ) steps side)
        (run Operation.onTable ∅ steps side)) ∧
    (∀ next, answer Operation.onSet (run Operation.onSet (Defines.empty : Defines σ) steps) next =
      answer Operation.onTable (run Operation.onTable ∅ steps) next) ∧
    ∀ others side otherSide,
      let first : Defines σ := run Operation.onSet Defines.empty steps side
      let second : Defines σ := run Operation.onSet Defines.empty others otherSide
      let sameMap := run Operation.onTable ∅ steps side = run Operation.onTable ∅ others otherSide
      (first = second ↔ sameMap) ∧
      ((∀ (η : Type) (hasher : Hasher σ η) (state : η),
        first.hashInto hasher state = second.hashInto hasher state) ↔ sameMap) := by
  refine ⟨fun known covers side => ((holds_run steps side).mono covers).agrees, fun next => ?_,
    fun others side otherSide => ?_⟩
  · have grown : interned steps ⊆ interned (steps ++ [next]) := by simp [interned]
    have allKnown : next.operation.interns ⊆ interned (steps ++ [next]) := by simp [interned]
    exact (((holds_run steps _).mono grown).step ((holds_run steps _).mono grown) allKnown).2
  · have sameSet := (holds_run (σ := σ) steps side).eq_iff (holds_run others otherSide)
    refine ⟨sameSet, fun same => sameSet.mp (eq_of_hashInto_eq same), fun same η hasher state => ?_⟩
    rw [sameSet.mpr same]

/-- Symbols in the reverse order of their names. -/
structure Backward where
  name : String
  deriving DecidableEq, Repr

namespace Backward

instance : Interner Backward := ⟨mk, name, fun _ => rfl⟩

instance : Ord Backward := ⟨fun first second => compare second.name first.name⟩

instance : Std.TransOrd Backward where
  eq_swap {first second} :=
    show compare second.name first.name = (compare first.name second.name).swap from
      Std.OrientedCmp.eq_swap
  isLE_trans {first _ third} before after :=
    show (compare third.name first.name).isLE from Std.TransCmp.isLE_trans after before

instance : Std.LawfulEqOrd Backward where
  eq_of_compare {first second} same := by
    change compare second.name first.name = .eq at same
    have names := Std.compare_eq_iff_eq.mp same
    cases first
    cases second
    exact congrArg mk names.symm

end Backward

/-- A set that is put together entry by entry and one that is made at once. -/
def shuffled : List Step :=
  [⟨.left, .set "LIGHTS" "8"⟩, ⟨.left, .define "FOG"⟩, ⟨.left, .set "LIGHTS" "4"⟩,
    ⟨.right, .ofList [("LIGHTS", "1"), ("HDR", "1")]⟩, ⟨.right, .merge⟩, ⟨.left, .set "HDR" "1"⟩]

theorem run_agrees_with_maps_shuffled :
    (run Operation.onSet (Defines.empty : Defines Backward) shuffled .left).toList =
        [("LIGHTS", "4"), ("HDR", "1"), ("FOG", "")] ∧
      run Operation.onSet (Defines.empty : Defines Backward) shuffled .left =
        run Operation.onSet Defines.empty shuffled .right ∧
      (run Operation.onSet (Defines.empty : Defines Backward) shuffled .left).find?
        (interned shuffled) "SHADOWS" = none ∧
      answer Operation.onSet (run Operation.onSet (Defines.empty : Defines Backward) shuffled)
        ⟨.left, .remove "SHADOWS"⟩ = some false := by
  obtain ⟨agrees, answers, same⟩ := run_agrees_with_maps (σ := Backward) shuffled
  refine ⟨by decide +kernel, (same shuffled .left .right).1.mpr (by decide +kernel), ?_, ?_⟩
  · rw [(agrees (interned shuffled) (List.Subset.refl _) .left).find?,
      (agrees (interned shuffled) (List.Subset.refl _) .left).get?]
    decide +kernel
  · rw [answers]
    decide +kernel

end ShaderPipeline.Defines
