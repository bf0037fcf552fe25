/-
  NumericalControl/Proofs/Word/Comment.lean
  =========================================
  **Comments are blanks.**  Taking out comments is a scan that counts the open brackets.
  Here comments are described without a scan: `Balanced` text is what may stand in a
  comment, and text is `Outside` when it consists of whole comments and of characters that
  begin none, so that no comment is open at its end.

  A comment leaves a blank for each of its brackets and nothing else
  (`Comment.Balanced.strip_comment`), and so does a comment that is never closed
  (`Comment.Unclosed.strip_inside`).  Which blanks stand between two tokens, and how many,
  does not matter: a line is read from its tokens alone (`Line.read_congr`).  So a
  comment is as good as a single space, and a comment at the end of a line is as good as
  nothing (`Line.read_comments`).

  Every text ends outside of comments, or in one that a semicolon begins or that is never
  closed (`Comment.ends`).  Blanks at the end of a line may stand in any of them, and always
  leave nothing but blanks (`Comment.strip_append_blanks`), so a line is read as it is when
  it is trimmed (`Line.read_trimmed`).
-/
import NumericalControl.Proofs.Text.Lines
import NumericalControl.Proofs.Word.Reading

namespace NumericalControl

namespace Comment

/-- Each bracket is closed, and no bracket is closed that was not opened. -/
inductive Balanced : List Char → Prop
  | nil : Balanced []
  | text {c : Char} {rest : List Char} (opens : c ≠ '(') (closes : c ≠ ')')
      (h : Balanced rest) : Balanced (c :: rest)
  | nested {inner rest : List Char} (h : Balanced inner) (h' : Balanced rest) :
      Balanced ('(' :: (inner ++ ')' :: rest))

/-- No comment is open at the end. A bracket that closes nothing is ordinary text. -/
inductive Outside : List Char → Prop
  | nil : Outside []
  | text {c : Char} {rest : List Char} (opens : c ≠ '(') (ends : c ≠ ';')
      (h : Outside rest) : Outside (c :: rest)
  | comment {inner rest : List Char} (h : Balanced inner) (h' : Outside rest) :
      Outside ('(' :: (inner ++ ')' :: rest))

/-- A bracket that is open in front of the text is not closed in it. -/
def Unclosed (text : List Char) : Prop :=
  ∀ inner rest, Balanced inner → text ≠ inner ++ ')' :: rest

theorem exists_of_not_unclosed {text : List Char} (h : ¬Unclosed text) :
    ∃ inner rest, Balanced inner ∧ text = inner ++ ')' :: rest := by
  simpa [Unclosed] using h

/-! ### The scan, character by character -/

theorem strip_opening (depth : Nat) (rest : List Char) :
    strip depth ('(' :: rest) = ' ' :: strip (depth + 1) rest := by
  rw [strip]

theorem strip_closing (depth : Nat) (rest : List Char) :
    strip (depth + 1) (')' :: rest) = ' ' :: strip depth rest := by
  rw [strip]

theorem strip_ending (rest : List Char) : strip 0 (';' :: rest) = [] := by
  rw [strip]

theorem strip_inside {c : Char} (opens : c ≠ '(') (closes : c ≠ ')') (depth : Nat)
    (rest : List Char) : strip (depth + 1) (c :: rest) = strip (depth + 1) rest := by
  rw [strip]
  · exact opens
  · exact closes

/-- Text outside comments is kept, a bracket that closes nothing with a blank behind it. -/
theorem strip_outside {c : Char} (opens : c ≠ '(') (ends : c ≠ ';') :
    ∃ kept, ∀ rest, strip 0 (c :: rest) = kept ++ strip 0 rest := by
  by_cases stray : c = ')'
  · subst stray
    exact ⟨[')', ' '], fun rest => by rw [strip]; rfl⟩
  · refine ⟨[c], fun rest => ?_⟩
    rw [strip]
    · rfl
    · exact opens
    · exact ends
    · exact stray

/-! ### What comments leave behind -/

/-- A blank for each bracket. -/
def residue (text : List Char) : List Char :=
  (text.filter fun c => c == '(' || c == ')').map fun _ => ' '

theorem blanks_residue (text : List Char) : Text.Blanks (residue text) := by
  intro c mem
  obtain ⟨_, -, rfl⟩ := List.mem_map.mp mem
  decide

/-- **Balanced text inside of a comment leaves blanks behind.** -/
theorem Balanced.strip_inside {text : List Char} (h : Balanced text) (depth : Nat)
    (rest : List Char) :
    strip (depth + 1) (text ++ rest) = residue text ++ strip (depth + 1) rest := by
  induction h generalizing depth rest with
  | nil => rfl
  | text opens closes _ ih =>
    rw [List.cons_append, Comment.strip_inside opens closes, ih]
    simp [residue, opens, closes]
  | @nested inner behind _ _ ih ih' =>
    calc strip (depth + 1) ('(' :: (inner ++ ')' :: behind) ++ rest)
      _ = ' ' :: strip (depth + 2) (inner ++ ')' :: (behind ++ rest)) := by
        rw [List.cons_append, strip_opening, List.append_assoc, List.cons_append]
      _ = ' ' :: (residue inner ++ ' ' :: (residue behind ++ strip (depth + 1) rest)) := by
        rw [ih, strip_closing, ih']
      _ = residue ('(' :: (inner ++ ')' :: behind)) ++ strip (depth + 1) rest := by
        simp [residue]

/-- **A comment leaves a blank for each of its brackets.** -/
theorem Balanced.strip_comment {inner : List Char} (h : Balanced inner) (rest : List Char) :
    strip 0 ('(' :: (inner ++ ')' :: rest)) =
      residue ('(' :: (inner ++ [')'])) ++ strip 0 rest := by
  rw [strip_opening, h.strip_inside, strip_closing]
  simp [residue]

/-- **Text at whose end no comment is open is stripped by itself.** -/
theorem Outside.strip_append {front : List Char} (h : Outside front) (rest : List Char) :
    strip 0 (front ++ rest) = strip 0 front ++ strip 0 rest := by
  induction h with
  | nil => rfl
  | text opens ends _ ih =>
    obtain ⟨kept, keeps⟩ := strip_outside opens ends
    rw [List.cons_append, keeps, keeps, ih, List.append_assoc]
  | @comment inner behind balanced _ ih =>
    rw [List.cons_append, List.append_assoc, List.cons_append, balanced.strip_comment,
      balanced.strip_comment, ih]
    simp

/-- **A comment that is never closed leaves nothing but blanks.**  A bracket in it opens
    either a comment of its own or one that is not closed either. -/
theorem Unclosed.strip_inside {text : List Char} (h : Unclosed text) (depth : Nat) :
    strip (depth + 1) text = residue text := by
  match text with
  | [] => rfl
  | c :: rest =>
    by_cases opens : c = '('
    · subst opens
      by_cases later : Unclosed rest
      · rw [strip_opening, later.strip_inside]
        rfl
      · obtain ⟨inner, behind, balanced, rfl⟩ := exists_of_not_unclosed later
        have later : Unclosed behind := by
          rintro other last balanced' rfl
          refine h ('(' :: (inner ++ ')' :: other)) last (.nested balanced balanced') ?_
          simp
        rw [strip_opening, balanced.strip_inside, strip_closing, later.strip_inside]
        simp [residue]
    · have closes : c ≠ ')' := by
        rintro rfl
        exact h [] rest .nil rfl
      have later : Unclosed rest := by
        rintro inner behind balanced rfl
        exact h (c :: inner) behind (.text opens closes balanced) rfl
      rw [Comment.strip_inside opens closes, later.strip_inside]
      simp [residue, opens, closes]
termination_by text.length

/-! ### How a text ends -/

theorem Outside.append {front back : List Char} (h : Outside front) (h' : Outside back) :
    Outside (front ++ back) := by
  induction h with
  | nil => exact h'
  | text opens ends _ ih => exact .text opens ends ih
  | comment balanced _ ih =>
    rw [List.cons_append, List.append_assoc]
    exact .comment balanced ih

/-- Outside of comments, or in a comment that goes on to the end. -/
inductive Ends : List Char → Prop
  | outside {text : List Char} (h : Outside text) : Ends text
  | ending {front : List Char} (h : Outside front) (back : List Char) :
      Ends (front ++ ';' :: back)
  | unclosed {front back : List Char} (h : Outside front) (h' : Unclosed back) :
      Ends (front ++ '(' :: back)

theorem Ends.behind {front text : List Char} (h : Outside front) (h' : Ends text) :
    Ends (front ++ text) := by
  cases h' with
  | outside h' => exact .outside (h.append h')
  | ending h' back =>
    rw [← List.append_assoc]
    exact .ending (h.append h') back
  | unclosed h' unclosed =>
    rw [← List.append_assoc]
    exact .unclosed (h.append h') unclosed

/-- **Every text ends in one of these ways.** -/
theorem ends (text : List Char) : Ends text := by
  match text with
  | [] => exact .outside .nil
  | c :: rest =>
    by_cases opens : c = '('
    · subst opens
      by_cases unclosed : Unclosed rest
      · exact .unclosed .nil unclosed
      · obtain ⟨inner, behind, balanced, rfl⟩ := exists_of_not_unclosed unclosed
        have comment : Outside ('(' :: (inner ++ [')'])) := .comment balanced .nil
        have later := (ends behind).behind comment
        simpa using later
    · by_cases stops : c = ';'
      · subst stops
        exact .ending .nil rest
      · exact (ends rest).behind (.text opens stops .nil)
termination_by text.length

/-! ### Blanks in front of a text and behind it -/

theorem Outside.of_blanks {gap : List Char} (blank : Text.Blanks gap) : Outside gap := by
  induction gap with
  | nil => exact .nil
  | cons c rest ih =>
    obtain ⟨opens, -, ends, -⟩ := Line.plain_of_isBlank (blank c List.mem_cons_self)
    exact .text opens ends (ih fun d mem => blank d (List.mem_cons_of_mem _ mem))

theorem strip_of_blanks {gap : List Char} (blank : Text.Blanks gap) : strip 0 gap = gap :=
  Line.strip_eq_self fun c mem => Line.plain_of_isBlank (blank c mem)

/-- Blanks close no bracket. -/
theorem Unclosed.append_blanks {text back : List Char} (h : Unclosed text)
    (blank : Text.Blanks back) : Unclosed (text ++ back) := by
  have plain : ')' ∉ back := fun mem => (Line.plain_of_isBlank (blank _ mem)).2.1 rfl
  intro inner rest balanced split
  rcases List.append_eq_append_iff.mp split with ⟨part, -, closed⟩ | ⟨part, inside, closed⟩
  · exact plain (closed ▸ List.mem_append_right part List.mem_cons_self)
  · rcases part with _ | ⟨c, part⟩
    · rw [List.nil_append] at closed
      exact plain (closed ▸ List.mem_cons_self)
    · obtain ⟨rfl, -⟩ := List.cons.inj closed
      exact h inner part balanced inside

/-- **Blanks behind a text leave nothing but blanks**, whether a comment is open or not. -/
theorem strip_append_blanks {back : List Char} (blank : Text.Blanks back) (text : List Char) :
    ∃ gap, Text.Blanks gap ∧ strip 0 (text ++ back) = strip 0 text ++ gap := by
  cases ends text with
  | outside outside => exact ⟨back, blank, by rw [outside.strip_append, strip_of_blanks blank]⟩
  | ending outside rest =>
    refine ⟨[], Text.blanks_nil, ?_⟩
    rw [List.append_assoc, List.cons_append, outside.strip_append, outside.strip_append,
      strip_ending, strip_ending, List.append_nil, List.append_nil]
  | unclosed outside unclosed =>
    refine ⟨residue back, blanks_residue back, ?_⟩
    rw [List.append_assoc, List.cons_append, outside.strip_append, outside.strip_append,
      strip_opening, strip_opening, unclosed.strip_inside,
      (unclosed.append_blanks blank).strip_inside, List.append_assoc]
    simp [residue]

end Comment

namespace Line

/-! ### Lines with the same tokens -/

theorem allPieces_eq (code : List Char) :
    allPieces code =
      if (Text.tokens code).head?.bind List.head? = some '%' then []
      else (Text.tokens code).flatMap pieces := by
  rw [allPieces, (Text.parted_tokens code).head?_trimLeft]

variable {α : Type} [Scalar α]

/-- **A line is read from the tokens outside its comments.** -/
theorem read_congr {text text' : String}
    (same : Text.tokens (Comment.strip 0 text.toList) =
      Text.tokens (Comment.strip 0 text'.toList)) : (read text : Line α) = read text' := by
  rw [read, read, allPieces_eq, allPieces_eq, same]

theorem read_trimmed (text : String) : (read (Text.trimmed text) : Line α) = read text := by
  obtain ⟨front, back, before, behind, split⟩ := Text.exists_trim text.toList
  let code := Comment.strip 0 (Text.trim text.toList)
  obtain ⟨gap, blank, left⟩ := Comment.strip_append_blanks behind (Text.trim text.toList)
  have whole : Comment.strip 0 text.toList = front ++ (code ++ gap) := by
    calc Comment.strip 0 text.toList
      _ = Comment.strip 0 (front ++ (Text.trim text.toList ++ back)) := by rw [← split]
      _ = front ++ (code ++ gap) := by
        rw [(Comment.Outside.of_blanks before).strip_append, Comment.strip_of_blanks before, left]
  apply read_congr
  rw [Text.trimmed, String.toList_ofList, whole, Text.tokens_behind_blanks before,
    Text.tokens_before_blanks blank]

/-! ### Comments in a line -/

/-- Behind the text a comment is as good as a space, and the rest of a line in a comment is
    as good as nothing. -/
structure CommentsBlank (α : Type) [Scalar α] (front : String) : Prop where
  comment : ∀ inner back : String, Comment.Balanced inner.toList →
    (read (front ++ "(" ++ inner ++ ")" ++ back) : Line α) = read (front ++ " " ++ back)
  ending : ∀ back : String, (read (front ++ ";" ++ back) : Line α) = read front
  unclosed : ∀ back : String, Comment.Unclosed back.toList →
    (read (front ++ "(" ++ back) : Line α) = read front

/-- **Comments are blanks**, behind all text at whose end none is open. -/
theorem read_comments {front : String} (outside : Comment.Outside front.toList) :
    CommentsBlank α front := by
  constructor
  case comment =>
    intro inner back balanced
    let comment := '(' :: (inner.toList ++ [')'])
    have commented : (front ++ "(" ++ inner ++ ")" ++ back).toList =
        front.toList ++ '(' :: (inner.toList ++ ')' :: back.toList) := by simp
    have spaced : (front ++ " " ++ back).toList = front.toList ++ ([' '] ++ back.toList) := by simp
    have space : Comment.Outside [' '] := .of_blanks Text.blanks_space
    have gap : Comment.residue comment ≠ [] := by simp [comment, Comment.residue]
    apply read_congr
    calc Text.tokens (Comment.strip 0 (front ++ "(" ++ inner ++ ")" ++ back).toList)
      _ = Text.tokens (Comment.strip 0 front.toList ++
            (Comment.residue comment ++ Comment.strip 0 back.toList)) := by
        rw [commented, outside.strip_append, balanced.strip_comment]
      _ = Text.tokens (Comment.strip 0 front.toList ++ ([' '] ++ Comment.strip 0 back.toList)) := by
        rw [Text.tokens_append_blanks gap (Comment.blanks_residue comment),
          Text.tokens_append_blanks (List.cons_ne_nil _ _) Text.blanks_space]
      _ = Text.tokens (Comment.strip 0 (front ++ " " ++ back).toList) := by
        rw [spaced, outside.strip_append, space.strip_append]
        rfl
  case ending =>
    intro back
    have ended : (front ++ ";" ++ back).toList = front.toList ++ ';' :: back.toList := by simp
    apply read_congr
    rw [ended, outside.strip_append, Comment.strip_ending, List.append_nil]
  case unclosed =>
    intro back unclosed
    have opened : (front ++ "(" ++ back).toList = front.toList ++ '(' :: back.toList := by simp
    have left : ' ' :: Comment.residue back.toList = Comment.residue ('(' :: back.toList) := rfl
    apply read_congr
    rw [opened, outside.strip_append, Comment.strip_opening, unclosed.strip_inside, left,
      Text.tokens_before_blanks (Comment.blanks_residue _)]

/-- In front stand a bracket that closes nothing and a comment, and in the comments a
    semicolon, a percent sign and more brackets. -/
theorem read_comments_nested :
    let front := " )G1(a;(b))x2"
    let inner := "c;(d%)"
    let back := "e(f;Y4"
    Comment.Outside front.toList ∧ Comment.Balanced inner.toList ∧ Comment.Unclosed back.toList ∧
      CommentsBlank Float front ∧
      (read (front ++ "(" ++ inner ++ ")" ++ "Y3") : Line Float) =
        ⟨[.of 'G' 1.0, .of 'X' 2.0, .of 'Y' 3.0], [")"]⟩ := by
  intro front inner back
  have remark : Comment.Balanced ['a', ';', '(', 'b', ')'] :=
    .text (by decide) (by decide) <| .text (by decide) (by decide) <|
      @Comment.Balanced.nested ['b'] [] (.text (by decide) (by decide) .nil) .nil
  have outside : Comment.Outside front.toList := by
    have list : front.toList = [' ', ')', 'G', '1'] ++ '(' :: (['a', ';', '(', 'b', ')'] ++
      ')' :: ['x', '2']) := by decide +kernel
    rw [list]
    refine .text (by decide) (by decide) <| .text (by decide) (by decide) <|
      .text (by decide) (by decide) <| .text (by decide) (by decide) <| .comment remark ?_
    exact .text (by decide) (by decide) <| .text (by decide) (by decide) .nil
  have balanced : Comment.Balanced inner.toList := by
    have list : inner.toList = ['c', ';'] ++ '(' :: (['d', '%'] ++ ')' :: []) := by decide +kernel
    rw [list]
    refine .text (by decide) (by decide) <| .text (by decide) (by decide) <| .nested ?_ .nil
    exact .text (by decide) (by decide) <| .text (by decide) (by decide) .nil
  have unclosed : Comment.Unclosed back.toList := by
    intro inside rest _ closed
    have mem : ')' ∈ back.toList := by
      rw [closed]
      simp
    revert mem
    decide +kernel
  have blank := read_comments (α := Float) outside
  refine ⟨outside, balanced, unclosed, blank, ?_⟩
  rw [blank.comment _ _ balanced]
  decide +kernel

end Line

end NumericalControl
