/-
  NumericalControl/Proofs/Text/Tokens.lean
  ========================================
  **Tokens and the blanks between them.**  A text is made of its tokens, in their order,
  and of the blanks around them.  `Parted` says so without a word on how the tokens are
  found: a token is a run of visible characters, and what follows it is a blank or nothing.

  Cutting a text where blankness changes gives runs of one kind each, two neighbours of
  different kinds, so the visible ones are tokens in this sense (`parted_tokens`).  And a
  text is parted in one way only (`Parted.tokens_eq`), so whatever is written as tokens
  with blanks between them is read as these tokens.
-/
import Mathlib.Data.List.SplitBy
import Mathlib.Data.List.TakeWhile
import NumericalControl.Text.Blank

namespace NumericalControl.Text

/-- A run of blanks, which may be empty. -/
def Blanks (gap : List Char) : Prop := ∀ c ∈ gap, isBlank c = true

def Visible (token : List Char) : Prop := token ≠ [] ∧ ∀ c ∈ token, isBlank c = false

theorem blanks_nil : Blanks [] := by simp [Blanks]

theorem blanks_space : Blanks [' '] := by simp [Blanks, isBlank, blankRanges]

theorem Blanks.append {first second : List Char} (h : Blanks first) (h' : Blanks second) :
    Blanks (first ++ second) := by
  intro c mem
  rcases List.mem_append.mp mem with mem | mem
  · exact h c mem
  · exact h' c mem

/-- A text with its tokens. -/
inductive Parted : List Char → List (List Char) → Prop
  | blanks {gap : List Char} (h : Blanks gap) : Parted gap []
  | token {gap token rest : List Char} {tokens : List (List Char)} (front : Blanks gap)
      (visible : Visible token) (ends : ∀ c ∈ rest.head?, isBlank c = true)
      (h : Parted rest tokens) : Parted (gap ++ (token ++ rest)) (token :: tokens)

theorem Parted.behind {gap cs : List Char} {tokens : List (List Char)} (front : Blanks gap)
    (h : Parted cs tokens) : Parted (gap ++ cs) tokens := by
  cases h with
  | blanks blank => exact .blanks (front.append blank)
  | token blank visible ends h =>
    rw [← List.append_assoc]
    exact .token (front.append blank) visible ends h

theorem Parted.visible {cs : List Char} {tokens : List (List Char)} (h : Parted cs tokens) :
    ∀ token ∈ tokens, Visible token := by
  induction h with
  | blanks => simp
  | token _ visible _ _ ih =>
    intro token mem
    rcases List.mem_cons.mp mem with rfl | later
    · exact visible
    · exact ih token later

/-! ### Runs of one kind -/

theorem isBlank_eq_of_isChain {c : Char} {run : List Char}
    (chain : (c :: run).IsChain fun a b => (isBlank a == isBlank b) = true) :
    ∀ d ∈ c :: run, isBlank d = isBlank c := by
  induction run generalizing c with
  | nil => simp
  | cons b rest ih =>
    obtain ⟨same, chain⟩ := List.isChain_cons_cons.mp chain
    have same : isBlank c = isBlank b := by simpa using same
    intro d mem
    rcases List.mem_cons.mp mem with rfl | later
    · rfl
    · rw [ih chain d later, same]

theorem isChain_of_isBlank_eq {run : List Char} {kind : Bool} (h : ∀ c ∈ run, isBlank c = kind) :
    run.IsChain fun a b => (isBlank a == isBlank b) = true := by
  induction run with
  | nil => exact .nil
  | cons c rest ih =>
    refine List.isChain_cons.mpr ⟨?_, ih fun d mem => h d (List.mem_cons_of_mem _ mem)⟩
    intro d first
    simp [h c, h d (List.mem_cons_of_mem _ (List.mem_of_mem_head? first))]

theorem blanks_or_visible {run : List Char} (nonempty : run ≠ [])
    (chain : run.IsChain fun a b => (isBlank a == isBlank b) = true) :
    Blanks run ∨ Visible run := by
  obtain ⟨c, rest, rfl⟩ := List.exists_cons_of_ne_nil nonempty
  have kind := isBlank_eq_of_isChain chain
  rcases blank : isBlank c with _ | _
  · exact .inr ⟨nonempty, fun d mem => (kind d mem).trans blank⟩
  · exact .inl fun d mem => (kind d mem).trans blank

theorem any_isBlank_of_blanks {run : List Char} (nonempty : run ≠ []) (h : Blanks run) :
    run.any isBlank = true := by
  obtain ⟨c, rest, rfl⟩ := List.exists_cons_of_ne_nil nonempty
  simp [h c List.mem_cons_self]

theorem any_isBlank_of_visible {run : List Char} (h : Visible run) : run.any isBlank = false := by
  simpa using h.2

/-! ### The tokens of a text -/

theorem parted_flatten {runs : List (List Char)} (nonempty : [] ∉ runs)
    (kinds : ∀ run ∈ runs, run.IsChain fun a b => (isBlank a == isBlank b) = true)
    (changes : runs.IsChain fun a b =>
      ∃ ha hb, (isBlank (a.getLast ha) == isBlank (b.head hb)) = false) :
    Parted runs.flatten (runs.filter fun run => !run.any isBlank) := by
  induction runs with
  | nil => exact .blanks blanks_nil
  | cons run rest ih =>
    have here : run ≠ [] := fun empty => nonempty (by simp [empty])
    have later := ih (fun mem => nonempty (List.mem_cons_of_mem _ mem))
      (fun r mem => kinds r (List.mem_cons_of_mem _ mem)) changes.tail
    rw [List.flatten_cons]
    rcases blanks_or_visible here (kinds run List.mem_cons_self) with blank | visible
    · rw [List.filter_cons_of_neg (by simp [any_isBlank_of_blanks here blank])]
      exact later.behind blank
    · rw [List.filter_cons_of_pos (by simp [any_isBlank_of_visible visible])]
      refine @Parted.token [] _ _ _ blanks_nil visible ?_ later
      -- the next run is of the other kind
      intro c first
      rcases rest with _ | ⟨next, rest⟩
      · simp at first
      · obtain ⟨hrun, hnext, differ⟩ := (List.isChain_cons_cons.mp changes).1
        have head : next.head hnext = c := by
          rw [List.flatten_cons, List.head?_append_of_ne_nil _ hnext] at first
          exact Option.some.inj ((List.head?_eq_some_head hnext).symm.trans first)
        rw [visible.2 _ (List.getLast_mem hrun), head] at differ
        simpa using differ

theorem parted_tokens (cs : List Char) : Parted cs (tokens cs) := by
  let alike : Char → Char → Bool := fun a b => isBlank a == isBlank b
  have parted := parted_flatten (List.nil_notMem_splitBy alike cs)
    (fun _ => List.isChain_of_mem_splitBy) (List.isChain_getLast_head_splitBy alike cs)
  rwa [List.flatten_splitBy] at parted

theorem tokens_append {front back : List Char}
    (change : ∀ a ∈ front.getLast?, ∀ b ∈ back.head?, (isBlank a == isBlank b) = false) :
    tokens (front ++ back) = tokens front ++ tokens back := by
  rw [tokens, List.splitBy_append change, List.filter_append]
  rfl

theorem tokens_of_blanks {gap : List Char} (h : Blanks gap) : tokens gap = [] := by
  by_cases empty : gap = []
  · simp [empty, tokens]
  · rw [tokens, List.splitBy_of_isChain empty (isChain_of_isBlank_eq h)]
    simp [any_isBlank_of_blanks empty h]

theorem tokens_of_visible {token : List Char} (h : Visible token) : tokens token = [token] := by
  rw [tokens, List.splitBy_of_isChain h.1 (isChain_of_isBlank_eq h.2)]
  simp [any_isBlank_of_visible h]

/-- **A text is parted into tokens in one way only.** -/
theorem Parted.tokens_eq {cs : List Char} {ts : List (List Char)} (h : Parted cs ts) :
    tokens cs = ts := by
  induction h with
  | blanks blank => exact tokens_of_blanks blank
  | @token gap token rest ts blank visible ends _ ih =>
    have first : ∀ a ∈ gap.getLast?, ∀ b ∈ (token ++ rest).head?,
        (isBlank a == isBlank b) = false := by
      intro a last b head
      rw [List.head?_append_of_ne_nil _ visible.1] at head
      simp [blank a (List.mem_of_mem_getLast? last), visible.2 b (List.mem_of_mem_head? head)]
    have second : ∀ a ∈ token.getLast?, ∀ b ∈ rest.head?, (isBlank a == isBlank b) = false := by
      intro a last b head
      simp [visible.2 a (List.mem_of_mem_getLast? last), ends b head]
    rw [tokens_append first, tokens_append second, tokens_of_blanks blank,
      tokens_of_visible visible, ih]
    rfl

/-! ### Blanks between texts -/

/-- **A row of blanks parts the texts on both sides of it.** -/
theorem Parted.append {front gap back : List Char} {ts us : List (List Char)}
    (h : Parted front ts) (nonempty : gap ≠ []) (blank : Blanks gap) (h' : Parted back us) :
    Parted (front ++ (gap ++ back)) (ts ++ us) := by
  induction h with
  | blanks before => exact (h'.behind blank).behind before
  | @token before token rest ts front visible ends _ ih =>
    rw [List.append_assoc, List.append_assoc, List.cons_append]
    refine .token front visible ?_ ih
    -- behind the token comes what came there before, or the row of blanks
    intro c first
    rcases rest with _ | ⟨d, rest⟩
    · rw [List.nil_append, List.head?_append_of_ne_nil _ nonempty] at first
      exact blank c (List.mem_of_mem_head? first)
    · exact ends c first

theorem Visible.parted {token : List Char} (h : Visible token) : Parted token [token] := by
  have whole : Parted ([] ++ (token ++ [])) [token] :=
    .token blanks_nil h (by simp) (.blanks blanks_nil)
  simpa using whole

theorem tokens_append_blanks {front gap back : List Char} (nonempty : gap ≠ [])
    (blank : Blanks gap) : tokens (front ++ (gap ++ back)) = tokens front ++ tokens back :=
  ((parted_tokens front).append nonempty blank (parted_tokens back)).tokens_eq

theorem tokens_behind_blanks {gap : List Char} (blank : Blanks gap) (cs : List Char) :
    tokens (gap ++ cs) = tokens cs :=
  ((parted_tokens cs).behind blank).tokens_eq

theorem tokens_before_blanks {gap : List Char} (blank : Blanks gap) (cs : List Char) :
    tokens (cs ++ gap) = tokens cs := by
  by_cases empty : gap = []
  · rw [empty, List.append_nil]
  · have parted := (parted_tokens cs).append empty blank (.blanks blanks_nil)
    rw [List.append_nil, List.append_nil] at parted
    exact parted.tokens_eq

theorem trimLeft_eq_nil {cs : List Char} : trimLeft cs = [] ↔ Blanks cs :=
  List.dropWhile_eq_nil_iff

theorem trimLeft_append_of_blanks {gap : List Char} (blank : Blanks gap) (cs : List Char) :
    trimLeft (gap ++ cs) = trimLeft cs :=
  List.dropWhile_append_of_pos blank

/-- The first visible character of a text begins its first token. -/
theorem Parted.head?_trimLeft {cs : List Char} {ts : List (List Char)} (h : Parted cs ts) :
    (trimLeft cs).head? = ts.head?.bind List.head? := by
  cases h with
  | blanks blank =>
    rw [trimLeft_eq_nil.mpr blank]
    rfl
  | @token gap token rest _ blank visible _ _ =>
    obtain ⟨c, token, rfl⟩ := List.exists_cons_of_ne_nil visible.1
    have shown : isBlank c = false := visible.2 c List.mem_cons_self
    rw [trimLeft_append_of_blanks blank]
    simp [trimLeft, shown]

/-! ### Spaced pieces -/

/-- Pieces one behind the other, with at least one blank between each two. -/
inductive Spaced : List (List Char) → List Char → Prop
  | none : Spaced [] []
  | last (piece : List Char) : Spaced [piece] piece
  | next {piece gap text other : List Char} {pieces : List (List Char)} (nonempty : gap ≠ [])
      (blank : Blanks gap) (h : Spaced (other :: pieces) text) :
      Spaced (piece :: other :: pieces) (piece ++ (gap ++ text))

theorem Spaced.parted {pieces : List (List Char)} {text : List Char} (h : Spaced pieces text)
    (visible : ∀ piece ∈ pieces, Visible piece) : Parted text pieces := by
  induction h with
  | none => exact .blanks blanks_nil
  | last piece => exact (visible piece List.mem_cons_self).parted
  | next some blank _ ih =>
    have first := (visible _ List.mem_cons_self).parted
    exact first.append some blank (ih fun piece mem => visible piece (List.mem_cons_of_mem _ mem))

theorem Spaced.mem {pieces : List (List Char)} {text : List Char} (h : Spaced pieces text)
    {c : Char} (mem : c ∈ text) : isBlank c = true ∨ ∃ piece ∈ pieces, c ∈ piece := by
  induction h with
  | none => cases mem
  | last piece => exact .inr ⟨piece, List.mem_cons_self, mem⟩
  | @next piece gap text other pieces some blank _ ih =>
    rcases List.mem_append.mp mem with first | mem
    · exact .inr ⟨piece, List.mem_cons_self, first⟩
    · rcases List.mem_append.mp mem with between | later
      · exact .inl (blank c between)
      · rcases ih later with between | ⟨own, among, inside⟩
        · exact .inl between
        · exact .inr ⟨own, List.mem_cons_of_mem _ among, inside⟩

theorem spaced_intercalate (pieces : List (List Char)) :
    Spaced pieces ([' '].intercalate pieces) := by
  induction pieces with
  | nil => exact .none
  | cons piece rest ih =>
    rcases rest with _ | ⟨other, rest⟩
    · simpa [List.intercalate] using Spaced.last piece
    · rw [List.intercalate_cons_cons, List.append_assoc]
      exact .next (List.cons_ne_nil _ _) blanks_space ih

end NumericalControl.Text
