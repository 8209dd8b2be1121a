import ShaderPipeline.Proofs.Conditional.Composition
import ShaderPipeline.Proofs.Include.Seams
import ShaderPipeline.Proofs.Macro.Expansion

/-! Comments across the lines that the conditional pass takes away. The pass keeps lines as they
are written, comments included, and takes directives away together with the comment marks on their
lines. Without macros, what it leaves shows what it leaves of the text without comments if no
directive stands at the start or the end of a block comment. -/

namespace ShaderPipeline.Conditional

open Text Include

/-- What the code of a line asks of the pass, if it is a directive. -/
def commandOf? (code : Text) : Option Command :=
  (Directive.ofLine? code).map fun found => Command.ofName found.name

/-- A line that the pass carries out and takes away. -/
def Taken (code : Text) : Prop := commandOf? code ≠ none ∧ commandOf? code ≠ some .foreign

/-- No line of the text is a definition. -/
def Undefining (text : Text) : Prop :=
  ∀ code ∈ lines (stripComments text), commandOf? code ≠ some .define

/-- No line of the text is carried out. -/
def Passive (text : Text) : Prop := ∀ code ∈ lines (stripComments text), ¬ Taken code

/-- Every line that the pass carries out starts and ends outside block comments. -/
def TakesOutside : CommentState → List (Text × Text) → Prop
  | _, [] => True
  | state, (line, code) :: rest =>
    (Taken code → state = .code ∧ state.afterLine line = .code) ∧
      TakesOutside (state.afterLine line) rest

instance (code : Text) : Decidable (Taken code) := inferInstanceAs (Decidable (_ ∧ _))

instance (text : Text) : Decidable (Undefining text) :=
  inferInstanceAs (Decidable (∀ code ∈ lines (stripComments text), _))

instance (text : Text) : Decidable (Passive text) :=
  inferInstanceAs (Decidable (∀ code ∈ lines (stripComments text), _))

instance (state : CommentState) (pairs : List (Text × Text)) :
    Decidable (TakesOutside state pairs) :=
  match pairs with
  | [] => .isTrue trivial
  | (line, _) :: rest =>
    have := instDecidableTakesOutside (state.afterLine line) rest
    inferInstanceAs (Decidable (_ ∧ _))

theorem Undefining.code {text : Text} (undefining : Undefining text) :
    ∀ pair ∈ linesWithCode text, commandOf? pair.2 ≠ some .define :=
  fun _ member => undefining _ (List.of_mem_zip member).2

theorem Passive.code {text : Text} (passive : Passive text) :
    ∀ pair ∈ linesWithCode text, ¬ Taken pair.2 :=
  fun _ member => passive _ (List.of_mem_zip member).2

/-! ### The lines that are kept -/

/-- The lines that are kept of some lines in gates that the lines change. -/
inductive Keeps : Gates → List (Text × Text) → List (Text × Text) → Prop
  | nil {gates : Gates} : Keeps gates [] []
  | live {gates : Gates} {pair : Text × Text} {rest kept : List (Text × Text)}
      (live : gates.live = true) (follows : Keeps gates rest kept) :
      Keeps gates (pair :: rest) (pair :: kept)
  | dead {gates : Gates} {pair : Text × Text} {rest kept : List (Text × Text)}
      (dead : gates.live = false) (follows : Keeps gates rest kept) :
      Keeps gates (pair :: rest) kept
  | take {gates between : Gates} {line code : Text} {rest kept : List (Text × Text)}
      (taken : Taken code) (follows : Keeps between rest kept) :
      Keeps gates ((line, code) :: rest) kept

theorem Keeps.sublist {gates : Gates} {pairs kept : List (Text × Text)}
    (keeps : Keeps gates pairs kept) : kept.Sublist pairs := by
  induction keeps with
  | nil => exact .slnil
  | live live follows ih => exact ih.cons_cons _
  | dead dead follows ih => exact ih.cons _
  | take taken follows ih => exact ih.cons _

theorem Keeps.single {gates : Gates} {text : Text} {kept : List (Text × Text)}
    (keeps : Keeps gates (linesWithCode text) kept) :
    ∀ pair ∈ kept, '\n' ∉ pair.1 ∧ '\n' ∉ pair.2 :=
  fun pair member => single_linesWithCode text pair (keeps.sublist.subset member)

/-- Where directives lie outside block comments, a kept line is read in the state that it has in
the text: a dead stretch starts and ends at directives, outside of comments. -/
theorem Keeps.ownCodes {gates : Gates} {pairs kept : List (Text × Text)}
    (keeps : Keeps gates pairs kept) {state reader : CommentState}
    (outside : TakesOutside state pairs) (own : OwnCodes state pairs)
    (live : gates.live = true → reader = state) (dead : gates.live = false → reader = .code) :
    OwnCodes reader kept := by
  induction keeps generalizing state reader with
  | nil => rfl
  | @live gates pair _ _ isLive follows ih =>
    obtain rfl := live isLive
    obtain ⟨here, others⟩ := ownCodes_cons.mp own
    exact ownCodes_cons.mpr ⟨here, ih outside.2 others (fun _ => rfl) (by simp [isLive])⟩
  | dead isDead follows ih =>
    obtain rfl := dead isDead
    exact ih outside.2 (ownCodes_cons.mp own).2 (by simp [isDead]) fun _ => rfl
  | @take gates _ line _ _ _ taken follows ih =>
    obtain ⟨rfl, ends⟩ := outside.1 taken
    have joins : reader = .code := by
      cases open? : gates.live with
      | true => exact live open?
      | false => exact dead open?
    exact ih outside.2 (ownCodes_cons.mp own).2 (fun _ => joins.trans ends.symm) fun _ => joins

namespace Pass

/-- Without macros, a line that is not carried out is kept as it is written, or left out. -/
theorem result_line_of_not_taken {state : State} (none : state.macros.isEmpty = true)
    (place : Place) (text : Text) {code : Text} (stays : ¬ Taken code) :
    (line place text code).result state = (.ok (if state.gates.live then [text] else []), state) := by
  rw [line]
  cases found : Directive.ofLine? code with
  | none =>
    dsimp only
    rw [result_keep, Macro.expand_of_isEmpty none]
  | some read =>
    dsimp only
    rw [result_directive]
    cases asks : Command.ofName read.name with
    | foreign => rfl
    | _ => exact absurd (by simp [Taken, commandOf?, found, asks]) stays

/-- Of a line that is carried out nothing is kept, and only its code counts. -/
theorem result_line_of_taken {place : Place} {text code : Text} {state after : State}
    {kept : List Text} (taken : Taken code)
    (done : (line place text code).result state = (.ok kept, after)) (other : Text) :
    kept = [] ∧ (line place other code).result state = (.ok [], after) := by
  obtain ⟨directive, foreign⟩ := taken
  cases found : Directive.ofLine? code with
  | none => simp [commandOf?, found] at directive
  | some read =>
    simp only [line, found, result_directive] at done ⊢
    cases asks : Command.ofName read.name with
    | foreign => simp [commandOf?, found, asks] at foreign
    | error =>
      cases live : state.gates.live with
      | true => simp [asks, live] at done
      | false =>
        simp only [asks, live] at done ⊢
        cases done
        exact ⟨rfl, rfl⟩
    | _ =>
      simp only [asks] at done ⊢
      cases done
      exact ⟨rfl, rfl⟩

/-- A line that is not a definition leaves an empty macro table empty. -/
theorem isEmpty_macros_line {state : State} (none : state.macros.isEmpty = true) (place : Place)
    (text : Text) {code : Text} (plain : commandOf? code ≠ some .define) :
    ((line place text code).result state).2.macros.isEmpty = true := by
  cases found : Directive.ofLine? code with
  | none => simpa only [line, found]
  | some read =>
    simp only [line, found, result_directive]
    cases asks : Command.ofName read.name with
    | define => simp [commandOf?, found, asks] at plain
    | undefine =>
      have erased (name : String) : (state.macros.erase name).isEmpty = true := by
        simp [Std.TreeMap.isEmpty_erase, none]
      dsimp only
      split
      next =>
        rw [undefineIn]
        split
        next name _ => exact erased name.string
        next => exact none
      next => exact none
    | _ => exact none

end Pass

/-- The pass comes through some lines and keeps `kept` of them, as they are written or without
comments, as the lines are given. -/
structure Leaves (origin : String) (number : Nat) (state : State)
    (pairs kept : List (Text × Text)) (after : State) : Prop where
  written : (Pass.lines origin number pairs).result state = (.ok (kept.map Prod.fst), after)
  bare : (Pass.lines origin number (pairs.map fun pair => (pair.2, pair.2))).result state =
    (.ok (kept.map Prod.snd), after)

namespace Leaves

variable {origin : String} {number : Nat} {state between after : State}
  {pairs kept : List (Text × Text)}

/-- One line before others. -/
theorem cons {line code : Text} {rest : List (Text × Text)} (first : List (Text × Text))
    (written : (Pass.line ⟨origin, number⟩ line code).result state =
      (.ok (first.map Prod.fst), between))
    (bare : (Pass.line ⟨origin, number⟩ code code).result state =
      (.ok (first.map Prod.snd), between))
    (follows : Leaves origin (number + 1) between pairs rest after) :
    Leaves origin number state ((line, code) :: pairs) (first ++ rest) after := by
  constructor
  · rw [Pass.lines, Pass.result_follow, written]
    simp only [follows.written, Except.map, List.map_append]
  · rw [List.map_cons, Pass.lines, Pass.result_follow, bare]
    simp only [follows.bare, Except.map, List.map_append]

/-- Lines before others. -/
theorem append {more others : List (Text × Text)}
    (first : Leaves origin number state pairs kept between)
    (second : Leaves origin (number + pairs.length) between more others after) :
    Leaves origin number state (pairs ++ more) (kept ++ others) after := by
  constructor
  · rw [Pass.lines_append, Pass.result_follow, first.written]
    simp only [second.written, Except.map, List.map_append]
  · rw [List.map_append, Pass.lines_append, Pass.result_follow, first.bare]
    simp only [List.length_map, second.bare, Except.map, List.map_append]

/-- In live gates all lines are kept that are not carried out. -/
theorem of_passive (none : state.macros.isEmpty = true) (live : state.gates.live = true)
    (passive : ∀ pair ∈ pairs, ¬ Taken pair.2) : Leaves origin number state pairs pairs state := by
  induction pairs generalizing number with
  | nil => exact ⟨rfl, rfl⟩
  | cons pair rest ih =>
    obtain ⟨stays, others⟩ := List.forall_mem_cons.mp passive
    have kept (text : Text) := Pass.result_line_of_not_taken none ⟨origin, number⟩ text stays
    rw [live] at kept
    exact .cons [pair] (kept pair.1) (kept pair.2) (ih others)

end Leaves

/-- Without macros, a run that comes through leaves lines of the text. -/
theorem exists_leaves {origin : String} {number : Nat} {pairs : List (Text × Text)}
    {state after : State} {written : List Text} (none : state.macros.isEmpty = true)
    (undefining : ∀ pair ∈ pairs, commandOf? pair.2 ≠ some .define)
    (done : (Pass.lines origin number pairs).result state = (.ok written, after)) :
    ∃ kept, Leaves origin number state pairs kept after ∧ Keeps state.gates pairs kept ∧
      written = kept.map Prod.fst ∧ after.macros.isEmpty = true := by
  induction pairs generalizing number state written with
  | nil =>
    cases done
    exact ⟨[], ⟨rfl, rfl⟩, .nil, rfl, none⟩
  | cons pair rest ih =>
    obtain ⟨line, code⟩ := pair
    obtain ⟨plain, others⟩ := List.forall_mem_cons.mp undefining
    rw [Pass.lines] at done
    obtain ⟨here, between, more, first, follows, rfl⟩ := Pass.of_follow_ok done
    have empty := Pass.isEmpty_macros_line none ⟨origin, number⟩ line plain
    rw [first] at empty
    obtain ⟨kept, leaves, keeps, rfl, last⟩ := ih empty others follows
    by_cases taken : Taken code
    · obtain ⟨rfl, bare⟩ := Pass.result_line_of_taken taken first code
      exact ⟨kept, .cons [] first bare leaves, .take taken keeps, rfl, last⟩
    · have written := Pass.result_line_of_not_taken none ⟨origin, number⟩ line taken
      have bare := Pass.result_line_of_not_taken none ⟨origin, number⟩ code taken
      cases live : state.gates.live with
      | true =>
        rw [live] at written bare
        cases first.symm.trans written
        exact ⟨(line, code) :: kept, .cons [(line, code)] written bare leaves, .live live keeps,
          rfl, last⟩
      | false =>
        rw [live] at written bare
        cases first.symm.trans written
        exact ⟨kept, .cons [] written bare leaves, .dead live keeps, rfl, last⟩

/-! ### Comments removed before or after the pass -/

/-- The answer of the pass over a text, without macros. -/
def answer (origin : String) (text : Text) : Except Fault Text :=
  ((⟨origin, {}⟩ : Preprocessor).conditionals text).value.1

/-- Comments may be removed before or after the pass: where it comes through a text it comes through
the text without comments, and the same lines show. -/
def Commutes (origin : String) (text : Text) : Prop :=
  ∀ written, answer origin text = .ok written →
    ∃ bare, answer origin (stripComments text) = .ok bare ∧
      shown (stripComments written) = shown bare

private theorem answer_eq (origin : String) (text : Text) :
    answer origin text =
      ((Pass.lines origin 1 (linesWithCode text)).result ⟨[], {}⟩).1.map joinLines := by
  rw [answer, Preprocessor.value_conditionals, Pass.result_text]

private theorem exists_result_of_answer {origin : String} {text written : Text}
    (done : answer origin text = .ok written) :
    ∃ rows after, (Pass.lines origin 1 (linesWithCode text)).result ⟨[], {}⟩ = (.ok rows, after) ∧
      written = joinLines rows := by
  rw [answer_eq] at done
  cases ran : (Pass.lines origin 1 (linesWithCode text)).result ⟨[], {}⟩ with
  | mk outcome after =>
    rw [ran] at done
    cases outcome with
    | error fault => cases done
    | ok rows =>
      cases done
      exact ⟨rows, after, rfl, rfl⟩

/-- What the pass answers for a text without definitions is joined of lines that it keeps. -/
theorem exists_leaves_of_answer {origin : String} {text written : Text}
    (undefining : Undefining text) (done : answer origin text = .ok written) :
    ∃ kept after, Leaves origin 1 ⟨[], {}⟩ (linesWithCode text) kept after ∧
      Keeps [] (linesWithCode text) kept ∧ written = joinLines (kept.map Prod.fst) ∧
      after.macros.isEmpty = true := by
  obtain ⟨rows, after, ran, rfl⟩ := exists_result_of_answer done
  obtain ⟨kept, leaves, keeps, rfl, none⟩ :=
    exists_leaves Std.TreeMap.isEmpty_emptyc undefining.code ran
  exact ⟨kept, after, leaves, keeps, rfl, none⟩

namespace Leaves

variable {origin : String} {text : Text} {kept : List (Text × Text)} {after : State}
  (leaves : Leaves origin 1 ⟨[], {}⟩ (linesWithCode text) kept after)

include leaves

theorem answer_eq : answer origin text = .ok (joinLines (kept.map Prod.fst)) := by
  rw [Conditional.answer_eq, leaves.written]
  rfl

theorem answer_stripComments :
    answer origin (stripComments text) = .ok (joinLines (kept.map Prod.snd)) := by
  rw [Conditional.answer_eq, linesWithCode_stripComments, leaves.bare]
  rfl

theorem commutes_iff (single : ∀ pair ∈ kept, '\n' ∉ pair.1 ∧ '\n' ∉ pair.2) :
    Commutes origin text ↔
      shownLines (codesFrom .code (kept.map Prod.fst)) = shownLines (kept.map Prod.snd) := by
  rw [← shown_stripComments_kept_iff single, Commutes, leaves.answer_eq,
    leaves.answer_stripComments]
  simp

end Leaves

/-! ### Headers -/

/-- What comes through a text with all its conditionals ended comes out in live gates. -/
theorem Leaves.live {origin : String} {text : Text} {kept : List (Text × Text)} {after : State}
    (leaves : Leaves origin 1 ⟨[], {}⟩ (linesWithCode text) kept after)
    (balanced : Balanced text) : after.gates.live = true := by
  have nests : nestingAfter 0 ((linesWithCode text).map Prod.snd) = some 0 := by
    rwa [map_snd_linesWithCode]
  have shut : after.gates.length = 0 := by
    refine Pass.length_gates_lines origin 1 ?_ leaves.written
    exact nests
  rw [List.eq_nil_of_length_eq_zero shut]
  rfl

/-- Behind a header that commutes itself, a body that is not carried out is read in the comment
state that the kept lines of the header leave. -/
theorem Leaves.commutes_append_iff {origin : String} {text : Text} {kept : List (Text × Text)}
    {after : State} (leaves : Leaves origin 1 ⟨[], {}⟩ (linesWithCode text) kept after)
    (keeps : Keeps [] (linesWithCode text) kept) (none : after.macros.isEmpty = true)
    (ended : text.getLast? = some '\n') (closed : Closed text) (balanced : Balanced text)
    (commutes : Commutes origin text) {body : Text} (passive : Passive body) :
    Commutes origin (text ++ body) ↔
      shownLines (codesFrom (CommentState.code.afterLines (kept.map Prod.fst))
        ((linesWithCode body).map Prod.fst)) = shownLines ((linesWithCode body).map Prod.snd) := by
  have alone := (leaves.commutes_iff keeps.single).mp commutes
  have whole := leaves.append (.of_passive none (leaves.live balanced) passive.code)
  rw [← linesWithCode_append ended closed] at whole
  rw [whole.commutes_iff (List.forall_mem_append.mpr ⟨keeps.single, single_linesWithCode body⟩),
    List.map_append, codesFrom_append, shownLines_append, List.map_append, shownLines_append,
    alone, List.append_cancel_left_eq]

/-- A header leaves every body behind it alone if and only if it commutes itself and what the pass
keeps of it leaves no comment open. -/
theorem commutes_header_iff {origin : String} {text : Text} (undefining : Undefining text)
    (ended : text.getLast? = some '\n') (closed : Closed text) (balanced : Balanced text) :
    (∀ body, Passive body → Commutes origin (text ++ body)) ↔
      Commutes origin text ∧ ∀ written, answer origin text = .ok written → Closed written := by
  constructor
  · intro commutes
    have alone : Commutes origin text := by
      have behind := commutes [] (by decide)
      rwa [List.append_nil] at behind
    refine ⟨alone, fun written done => ?_⟩
    obtain ⟨kept, after, leaves, keeps, rfl, none⟩ := exists_leaves_of_answer undefining done
    have mark : Passive [';'] := by decide +kernel
    have behind := leaves.commutes_append_iff keeps none ended closed balanced alone mark
    exact (closed_joinLines_iff _).mpr
      (afterLines_eq_code_of_mark (behind.mp (commutes _ mark)))
  · rintro ⟨alone, shut⟩ body passive written done
    -- A run that comes through the header and the body has come through the header.
    obtain ⟨rows, last, ran, rfl⟩ := exists_result_of_answer done
    rw [linesWithCode_append ended closed, Pass.lines_append] at ran
    obtain ⟨_, after, _, first, _⟩ := Pass.of_follow_ok ran
    obtain ⟨kept, leaves, keeps, rfl, none⟩ :=
      exists_leaves Std.TreeMap.isEmpty_emptyc undefining.code first
    have code := (closed_joinLines_iff _).mp (shut _ leaves.answer_eq)
    refine (leaves.commutes_append_iff keeps none ended closed balanced alone passive).mpr
      ?_ _ done
    rw [code]
    exact (ownCodes_linesWithCode body).shownLines_eq

/-- Removing comments commutes with the pass over a text without definitions exactly when each kept
line shows its own code among the kept lines. It does so when every line that is carried out lies
outside block comments, and for a header in front of all bodies when its kept lines leave no comment
open as well, and only then. -/
theorem conditionals_commute_with_stripping {origin : String} {text : Text}
    (undefining : Undefining text) :
    (∀ written, answer origin text = .ok written →
      ∃ kept : List (Text × Text), kept.Sublist (linesWithCode text) ∧
        written = joinLines (kept.map Prod.fst) ∧
        answer origin (stripComments text) = .ok (joinLines (kept.map Prod.snd)) ∧
        (Commutes origin text ↔
          shownLines (codesFrom .code (kept.map Prod.fst)) = shownLines (kept.map Prod.snd))) ∧
    (TakesOutside .code (linesWithCode text) → Commutes origin text) ∧
    (text.getLast? = some '\n' → Closed text → Balanced text →
      ((∀ body, Passive body → Commutes origin (text ++ body)) ↔
        Commutes origin text ∧
          ∀ written, answer origin text = .ok written → Closed written)) := by
  refine ⟨fun written done => ?_, fun outside written done => ?_, commutes_header_iff undefining⟩
  · obtain ⟨kept, after, leaves, keeps, rfl, _⟩ := exists_leaves_of_answer undefining done
    exact ⟨kept, keeps.sublist, rfl, leaves.answer_stripComments, leaves.commutes_iff keeps.single⟩
  · obtain ⟨kept, after, leaves, keeps, rfl, _⟩ := exists_leaves_of_answer undefining done
    have own := keeps.ownCodes outside (ownCodes_linesWithCode text) (fun _ => rfl) fun _ => rfl
    exact (leaves.commutes_iff keeps.single).mpr own.shownLines_eq _ done

/-- A header with a comment over two lines in its live branch. -/
def guardedHeader : Text :=
  "#ifndef LOW // on\nfloat f; /* one\ntwo */ float g;\n#else\nfloat h;\n#endif\n".toList

theorem conditionals_commute_with_stripping_guarded :
    Undefining guardedHeader ∧ TakesOutside .code (linesWithCode guardedHeader) ∧
      guardedHeader.getLast? = some '\n' ∧ Closed guardedHeader ∧ Balanced guardedHeader ∧
      answer "source" guardedHeader = .ok "float f; /* one\ntwo */ float g;".toList ∧
      Commutes "source" guardedHeader ∧
      ∀ body, Passive body → Commutes "source" (guardedHeader ++ body) := by
  have undefining : Undefining guardedHeader := by decide +kernel
  have outside : TakesOutside .code (linesWithCode guardedHeader) := by decide +kernel
  have ended : guardedHeader.getLast? = some '\n' := by decide +kernel
  have closed : Closed guardedHeader := by decide +kernel
  have balanced : Balanced guardedHeader := by decide +kernel
  have answered : answer "source" guardedHeader =
      .ok "float f; /* one\ntwo */ float g;".toList :=
    ok_of_toOption (by decide +kernel)
  have commutes : Commutes "source" guardedHeader :=
    (conditionals_commute_with_stripping undefining).2.1 outside
  refine ⟨undefining, outside, ended, closed, balanced, answered, commutes, ?_⟩
  refine ((conditionals_commute_with_stripping undefining).2.2 ended closed balanced).mpr
    ⟨commutes, fun written done => ?_⟩
  rw [answered] at done
  cases done
  decide +kernel

/-- The directive takes the start of its comment away, so the end of the comment is left alone and
shows as code. -/
theorem taken_comment_start_shows_comment_end :
    let text := "#if 1 /* x\n*/ a\n#endif".toList
    Closed text ∧ Undefining text ∧ answer "source" text = .ok "*/ a".toList ∧
      answer "source" (stripComments text) = .ok " a".toList ∧ ¬ Commutes "source" text := by
  intro text
  have written : answer "source" text = .ok "*/ a".toList :=
    ok_of_toOption (by decide +kernel)
  have bare : answer "source" (stripComments text) = .ok " a".toList :=
    ok_of_toOption (by decide +kernel)
  refine ⟨by decide +kernel, by decide +kernel, written, bare, fun commutes => ?_⟩
  obtain ⟨other, same, shows⟩ := commutes _ written
  rw [bare] at same
  cases same
  have differ : shown (stripComments "*/ a".toList) ≠ shown " a".toList := by decide +kernel
  exact differ shows

end ShaderPipeline.Conditional
