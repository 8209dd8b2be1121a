import ShaderPipeline.Proofs.Text.Pieces

/-! Word replacement against the one way to cut a text into runs of word characters and the marks
between them. The walk over a text asks about each word once, in order, and puts the answers in the
places of the words. -/

namespace ShaderPipeline.Text

/-- The pieces of a text: filled runs of word characters that do not touch, and marks. -/
structure Cuts (cut : List Piece) (text : Text) : Prop where
  text_eq : cut.flatMap Piece.text = text
  separated : Separated cut

/-- A run ends where a mark follows it. -/
theorem pieces_append_run {word behind : Text} (filled : word ≠ [])
    (run : ∀ c ∈ word, isWordChar c = true) (apart : ∀ c ∈ behind.head?, isWordChar c = false) :
    pieces (word ++ behind) = .run word :: pieces behind := by
  cases behind with
  | nil => rw [List.append_nil, pieces_of_run filled run]; rfl
  | cons c rest =>
    have mark := apart c rfl
    rw [pieces_append_mark mark, pieces_of_run filled run, pieces_cons_mark mark]
    rfl

private theorem cuts_pieces (text : Text) : Cuts (pieces text) text :=
  ⟨flatMap_text_pieces text, separated_pieces text⟩

theorem Separated.apart {rest : List Piece} (follows : ∀ next ∈ rest.head?, ∃ c, next = .mark c)
    (separated : Separated rest) :
    ∀ c ∈ (rest.flatMap Piece.text).head?, isWordChar c = false := by
  intro c first
  cases rest with
  | nil => cases first
  | cons next more =>
    obtain ⟨d, rfl⟩ := follows next rfl
    obtain rfl : d = c := Option.some.inj first
    exact separated.1

/-- A text is cut in one way only. -/
theorem Cuts.eq_pieces {cut : List Piece} {text : Text} (cuts : Cuts cut text) :
    cut = pieces text := by
  obtain ⟨rfl, separated⟩ := cuts
  induction cut with
  | nil => rfl
  | cons piece rest ih =>
    cases piece with
    | mark c =>
      obtain ⟨mark, others⟩ := separated
      have same := ih others
      rw [List.flatMap_cons, Piece.text, List.singleton_append, pieces_cons_mark mark, ← same]
    | run word =>
      obtain ⟨⟨filled, run⟩, follows, others⟩ := separated
      have same := ih others
      rw [List.flatMap_cons, Piece.text,
        pieces_append_run filled run (others.apart follows), ← same]

/-! ### Answers in the places of words -/

/-- The text that pieces make up when the words among them have got answers, in order. A word that
is answered by nothing stays as it is. -/
def fill : List Piece → List (Option Text) → Text
  | [], _ => []
  | piece :: rest, answers =>
    match piece.word? with
    | none => piece.text ++ fill rest answers
    | some _ => answers.head?.join.getD piece.text ++ fill rest answers.tail

private theorem fill_of_wordless {piece : Piece} (wordless : piece.word? = none) (rest : List Piece)
    (answers : List (Option Text)) :
    fill (piece :: rest) answers = piece.text ++ fill rest answers := by
  simp only [fill, wordless]

private theorem fill_of_word {piece : Piece} {word : Text} (isWord : piece.word? = some word)
    (rest : List Piece) (answer : Option Text) (later : List (Option Text)) :
    fill (piece :: rest) (answer :: later) = answer.getD piece.text ++ fill rest later := by
  simp only [fill, isWord, List.head?_cons, Option.join_some, List.tail_cons]

/-- With a fixed answer for each word, every piece is replaced by itself. -/
theorem fill_map (replace : Text → Option Text) (cut : List Piece) :
    fill cut ((cut.filterMap Piece.word?).map replace) =
      cut.flatMap fun piece => ((piece.word?).bind replace).getD piece.text := by
  induction cut with
  | nil => rfl
  | cons piece rest ih =>
    cases found : piece.word? with
    | none =>
      rw [List.filterMap_cons_none found, fill_of_wordless found, ih, List.flatMap_cons, found]
      rfl
    | some word =>
      rw [List.filterMap_cons_some found, List.map_cons, fill_of_word found, ih, List.flatMap_cons,
        found]
      rfl

/-- Where no word has an answer, the pieces make up their text again. -/
theorem fill_of_silent {answers : List (Option Text)} (silent : ∀ answer ∈ answers, answer = none)
    (cut : List Piece) : fill cut answers = cut.flatMap Piece.text := by
  induction cut generalizing answers with
  | nil => rfl
  | cons piece rest ih =>
    rw [fill, List.flatMap_cons, ih silent]
    split
    · rfl
    · have stays : answers.head?.join = none := by
        cases answers with
        | nil => rfl
        | cons answer later => exact silent answer List.mem_cons_self
      rw [stays, ih fun answer member => silent answer (List.mem_of_mem_tail member)]
      rfl

/-! ### The walk -/

/-- What a walk comes to: nothing if it has put nothing out and no word has an answer, and else
what was put out with the rest of the text behind it. -/
def outcome (out : List Text) (rest : Text) (answers : List (Option Text)) : Option Text :=
  if out.isEmpty && answers.all Option.isNone then none else some (out.reverse.flatten ++ rest)

private theorem outcome_none (out : List Text) (rest : Text) (later : List (Option Text)) :
    outcome out rest (none :: later) = outcome out rest later := by
  simp [outcome]

private theorem outcome_some (out : List Text) (before answer rest : Text)
    (later : List (Option Text)) :
    outcome out (before ++ (answer ++ rest)) (some answer :: later) =
      outcome (answer :: before :: out) rest later := by
  simp [outcome]

private theorem getD_outcome_nil (text : Text) (answers : List (Option Text)) :
    (outcome [] (fill (pieces text) answers) answers).getD text = fill (pieces text) answers := by
  by_cases silent : ∀ answer ∈ answers, answer = none
  · have empty : outcome [] (fill (pieces text) answers) answers = none := by
      simpa [outcome] using silent
    rw [empty, fill_of_silent silent, flatMap_text_pieces]
    rfl
  · simp [outcome, silent]

section Walk

variable {m : Type → Type u} [Monad m] (replace : Text → m (Option Text)) (out : List Text)
  (uncopied : Text) (read : Nat)

private theorem copyReplacing_mark {c : Char} (mark : isWordChar c = false) (behind : Text) :
    copyReplacing replace out uncopied read (c :: behind) =
      copyReplacing replace out uncopied (read + 1) behind := by
  rw [copyReplacing]
  simp [mark]

/-- A run is read whole, and asked about unless it starts with a digit. -/
theorem copyReplacing_run {word behind : Text} (filled : word ≠ [])
    (run : ∀ c ∈ word, isWordChar c = true) (apart : ∀ c ∈ behind.head?, isWordChar c = false) :
    copyReplacing replace out uncopied read (word ++ behind) =
      match (Piece.run word).word? with
      | none => copyReplacing replace out uncopied (read + word.length) behind
      | some asked => replace asked >>= fun answer =>
        match answer with
        | none => copyReplacing replace out uncopied (read + word.length) behind
        | some replacement =>
          copyReplacing replace (replacement :: uncopied.take read :: out) behind 0 behind := by
  obtain ⟨c, letters, rfl⟩ := List.exists_cons_of_ne_nil filled
  obtain ⟨first, others⟩ := List.forall_mem_cons.mp run
  have taken : (letters ++ behind).takeWhile isWordChar = letters := by
    rw [List.takeWhile_append_of_pos others]
    cases behind with
    | nil => simp
    | cons d rest => simp [apart d rfl]
  have left : (letters ++ behind).dropWhile isWordChar = behind := by
    rw [List.dropWhile_append_of_pos others]
    cases behind with
    | nil => rfl
    | cons d rest => simp [apart d rfl]
  rw [List.cons_append, copyReplacing]
  simp only [first, taken, left, ↓reduceIte, Piece.word?]
  cases c.isDigit <;> rfl

end Walk

/-- The walk is a call for each word ahead, in order, and then the answers put in their places. -/
theorem copyReplacing_eq {m : Type → Type u} [Monad m] [LawfulMonad m]
    (replace : Text → m (Option Text)) {cut : List Piece} (separated : Separated cut)
    (out : List Text) (before : Text) :
    copyReplacing replace out (before ++ cut.flatMap Piece.text) before.length
        (cut.flatMap Piece.text) =
      (fun answers => outcome out (before ++ fill cut answers) answers) <$>
        (cut.filterMap Piece.word?).mapM replace := by
  -- What is read and not put out is `before`. It grows with every piece that stays.
  induction cut generalizing out before with
  | nil =>
    rw [List.filterMap_nil, List.mapM_nil, map_pure, List.flatMap_nil, copyReplacing]
    simp [outcome, fill]
  | cons piece rest ih =>
    cases piece with
    | mark c =>
      obtain ⟨mark, others⟩ := separated
      have later := ih others out (before ++ [c])
      rw [List.append_assoc, List.length_append] at later
      rw [List.filterMap_cons_none rfl, List.flatMap_cons]
      refine (copyReplacing_mark replace out _ _ mark _).trans (later.trans ?_)
      congr 1
      funext answers
      rw [fill_of_wordless rfl, List.append_assoc]
      rfl
    | run word =>
      obtain ⟨⟨filled, run⟩, follows, others⟩ := separated
      have stays := ih others out (before ++ word)
      rw [List.append_assoc, List.length_append] at stays
      have apart := others.apart follows
      rw [List.flatMap_cons]
      refine (copyReplacing_run replace out _ _ filled run apart).trans ?_
      cases found : (Piece.run word).word? with
      | none =>
        rw [List.filterMap_cons_none found]
        refine stays.trans ?_
        congr 1
        funext answers
        rw [fill_of_wordless found, List.append_assoc]
        rfl
      | some asked =>
        simp only [List.filterMap_cons_some found, List.mapM_cons, map_bind, bind_pure_comp,
          Functor.map_map]
        refine bind_congr fun answer => ?_
        cases answer with
        | none =>
          refine stays.trans ?_
          congr 1
          funext later
          rw [outcome_none, fill_of_word found, List.append_assoc]
          rfl
        | some replacement =>
          have putOut := ih others (replacement :: before :: out) []
          simp only [List.nil_append, List.length_nil] at putOut
          dsimp only
          rw [List.take_left, putOut]
          congr 1
          funext later
          rw [fill_of_word found, Option.getD_some, outcome_some]

private theorem replaceWordsM_eq {m : Type → Type u} [Monad m] [LawfulMonad m]
    (replace : Text → m (Option Text)) (text : Text) :
    replaceWordsM replace text = fill (pieces text) <$> (identifiers text).mapM replace := by
  have walk := copyReplacing_eq replace (separated_pieces text) [] []
  simp only [flatMap_text_pieces, List.nil_append, List.length_nil] at walk
  rw [replaceWordsM, walk, bind_pure_comp, Functor.map_map]
  congr 1
  funext answers
  exact getD_outcome_nil text answers

/-- Without effects it makes no difference how the answers come. -/
theorem replaceWordsM_pure {m : Type → Type u} [Monad m] [LawfulMonad m]
    (replace : Text → Option Text) (text : Text) :
    replaceWordsM (fun word => (pure (replace word) : m (Option Text))) text =
      pure (replaceWords replace text) := by
  rw [replaceWordsM_eq, List.mapM_pure, map_pure, identifiers, fill_map]
  rfl

private theorem replaceWords_append_mark (replace : Text → Option Text) {c : Char}
    (mark : isWordChar c = false) (first second : Text) :
    replaceWords replace (first ++ c :: second) =
      replaceWords replace first ++ c :: replaceWords replace second := by
  rw [replaceWords, pieces_append_mark mark, List.flatMap_append, List.flatMap_cons]
  rfl

/-- A text is cut in one way into runs of word characters and the marks between them, and to
replace words is to ask about each run that starts with no digit, once and in order, and to put the
answers in their places. An answer that depends on the word alone is put in on either side of a mark
by itself. -/
theorem replaceWords_substitutes (text : Text) :
    (∃ cut : List Piece, Cuts cut text ∧ (∀ other, Cuts other text → other = cut) ∧
        ∀ {m : Type → Type u} [Monad m] [LawfulMonad m] (replace : Text → m (Option Text)),
          replaceWordsM replace text = fill cut <$> (cut.filterMap Piece.word?).mapM replace) ∧
      (∀ {m : Type → Type u} [Monad m] [LawfulMonad m] (replace : Text → Option Text),
        replaceWordsM (fun word => (pure (replace word) : m (Option Text))) text =
          pure (replaceWords replace text)) ∧
      ∀ (replace : Text → Option Text) (first second : Text) (c : Char),
        isWordChar c = false → text = first ++ c :: second →
          replaceWords replace text =
            replaceWords replace first ++ c :: replaceWords replace second := by
  refine ⟨⟨pieces text, cuts_pieces text, fun other cuts => cuts.eq_pieces, ?_⟩, ?_, ?_⟩
  · intro m _ _ replace
    exact replaceWordsM_eq replace text
  · intro m _ _ replace
    exact replaceWordsM_pure replace text
  · rintro replace first second c mark rfl
    exact replaceWords_append_mark replace mark first second

/-- Numbers the words `X` from the count on. -/
def numberX (word : Text) : StateM Nat (Option Text) := do
  if word = ['X'] then
    let count ← getModify (· + 1)
    return some (Nat.toDigits 10 count)
  else return none

/-- Words at both ends of a text, a letter beyond ASCII, and runs that start with a digit. -/
def spacedX : Text := "X+é1X 0X_X X".toList

theorem replaceWords_substitutes_numbered :
    LawfulMonad (StateM Nat) ∧ isWordChar '+' = false ∧
      (replaceWordsM numberX spacedX).run 0 = ("0+é1X 0X_X 1".toList, 2) ∧
      replaceWords (fun word => if word = ['X'] then some [] else none) spacedX =
        "+é1X 0X_X ".toList := by
  obtain ⟨⟨cut, _, unique, calls⟩, _, apart⟩ := replaceWords_substitutes spacedX
  have same := unique (pieces spacedX) (cuts_pieces spacedX)
  have mark : isWordChar '+' = false := by decide
  refine ⟨inferInstance, mark, ?_, ?_⟩
  · rw [calls, ← same]
    rfl
  · rw [apart _ ['X'] "é1X 0X_X X".toList '+' mark rfl]
    rfl

end ShaderPipeline.Text
