/-
  NumericalControl/Proofs/Toolpath/Growth.lean
  ============================================
  **A builder only adds.**  A small step leaves the commands and the findings as they are
  and puts new ones behind them, under the number of the current line (`Step.grows`).  So
  the numbers never go down (`Step.numbered`), and all that a run adds stems from the lines
  that it takes (`grows_foldl_takeLine`).

  Hence no line changes what came of the lines before it.  The commands and the findings
  of a program begin with those of its first lines, and these are the ones under the
  numbers of the first lines (`Builder.keeps_earlier`).
-/
import NumericalControl.Proofs.Toolpath.Success

namespace NumericalControl

/-! ### Arrays that grow -/

section

variable {β : Type} {number : β → Nat} {xs ys zs : Array β} {first last : Nat}

/-- The second array is the first one with further elements behind it, numbered from `first`
    to `last`. -/
def Appends (number : β → Nat) (first last : Nat) (xs ys : Array β) : Prop :=
  ∃ more, ys.toList = xs.toList ++ more ∧ ∀ x ∈ more, first ≤ number x ∧ number x ≤ last

/-- The numbers never go down, and none is above `last`. -/
structure Ascends (number : β → Nat) (last : Nat) (xs : Array β) : Prop where
  pairwise : xs.toList.Pairwise fun x y => number x ≤ number y
  le : ∀ x ∈ xs.toList, number x ≤ last

theorem Appends.refl (number : β → Nat) (first last : Nat) (xs : Array β) :
    Appends number first last xs xs :=
  ⟨[], by simp⟩

theorem Appends.trans {first' last' : Nat} (h : Appends number first last xs ys)
    (h' : Appends number first' last' ys zs) (from_le : first ≤ first') (le : last ≤ last') :
    Appends number first last' xs zs := by
  obtain ⟨more, ys_eq, between⟩ := h
  obtain ⟨more', zs_eq, between'⟩ := h'
  refine ⟨more ++ more', by rw [zs_eq, ys_eq, List.append_assoc], ?_⟩
  intro x mem
  rcases List.mem_append.mp mem with mem | mem
  · have := between x mem
    omega
  · have := between' x mem
    omega

theorem Appends.mem_of_empty {x : β} (h : Appends number first last #[] ys) (mem : x ∈ ys) :
    first ≤ number x ∧ number x ≤ last := by
  obtain ⟨more, ys_eq, between⟩ := h
  rw [← Array.mem_toList_iff, ys_eq] at mem
  exact between x mem

theorem Appends.prefix (h : Appends number first last xs ys) : xs.toList <+: ys.toList := by
  obtain ⟨more, ys_eq, -⟩ := h
  exact ⟨more, ys_eq.symm⟩

/-- What was there is what is numbered below the new elements. -/
theorem Appends.filter_eq (h : Appends number (first + 1) last xs ys)
    (below : ∀ x ∈ xs.toList, number x ≤ first) :
    ys.toList.filter (fun x => decide (number x ≤ first)) = xs.toList := by
  obtain ⟨more, ys_eq, between⟩ := h
  have kept : xs.toList.filter (fun x => decide (number x ≤ first)) = xs.toList := by
    rw [List.filter_eq_self]
    intro x mem
    exact decide_eq_true (below x mem)
  have dropped : more.filter (fun x => decide (number x ≤ first)) = [] := by
    rw [List.filter_eq_nil_iff]
    intro x mem
    have := (between x mem).1
    simp only [decide_eq_true_eq]
    omega
  rw [ys_eq, List.filter_append, kept, dropped, List.append_nil]

theorem Ascends.append {last' : Nat} (h : Ascends number last xs) (le : last ≤ last')
    (more : Appends number last' last' xs ys) : Ascends number last' ys := by
  obtain ⟨more, ys_eq, between⟩ := more
  have same : ∀ y ∈ more, number y = last' := by
    intro y mem
    have := between y mem
    omega
  constructor
  · rw [ys_eq, List.pairwise_append]
    refine ⟨h.pairwise, List.pairwise_of_forall_mem_list ?_, ?_⟩
    · intro x mem y mem'
      exact Nat.le_of_eq ((same x mem).trans (same y mem').symm)
    · intro x mem y mem'
      rw [same y mem']
      exact Nat.le_trans (h.le x mem) le
  · intro x mem
    rw [ys_eq, List.mem_append] at mem
    rcases mem with mem | mem
    · exact Nat.le_trans (h.le x mem) le
    · exact Nat.le_of_eq (same x mem)

end

variable {α : Type} [Scalar α]

namespace Builder

/-! ### Runs that add -/

/-- The second builder has what the first one has, and behind it only what is numbered from
    `first` on. -/
structure Grows (first : Nat) (b next : Builder α) : Prop where
  line : b.line ≤ next.line
  commands : Appends Command.line first next.line b.commands next.commands
  diagnostics : Appends Diagnostic.line first next.line b.diagnostics next.diagnostics

omit [Scalar α] in
theorem Grows.refl (first : Nat) (b : Builder α) : Grows first b b :=
  ⟨Nat.le_refl _, .refl _ _ _ _, .refl _ _ _ _⟩

omit [Scalar α] in
theorem Grows.trans {first first' : Nat} {b mid next : Builder α} (h : Grows first b mid)
    (h' : Grows first' mid next) (le : first ≤ first') : Grows first b next :=
  ⟨Nat.le_trans h.line h'.line, h.commands.trans h'.commands le h'.line,
    h.diagnostics.trans h'.diagnostics le h'.line⟩

omit [Scalar α] in
theorem grows_note (b : Builder α) (findings : List (Finding α)) :
    Grows b.line b (b.note findings) := by
  refine ⟨Nat.le_refl _, .refl _ _ _ _, findings.map (Diagnostic.mk b.line), ?_, ?_⟩
  · simp [note]
  · simp [note]

/-- **A small step adds under the number of the current line.** -/
theorem Step.grows {b next : Builder α} (step : Step b next) : Grows next.line b next := by
  cases step with
  | count => exact ⟨Nat.le_succ _, .refl _ _ _ _, .refl _ _ _ _⟩
  | note => exact grows_note b _
  | pause => exact ⟨Nat.le_refl _, .refl _ _ _ _, .refl _ _ _ _⟩
  | remember => exact ⟨Nat.le_refl _, .refl _ _ _ _, .refl _ _ _ _⟩
  | segment source after segment =>
    refine ⟨Nat.le_refl _, ?_, (grows_note b _).diagnostics⟩
    refine ⟨[b.commandOf source after segment], Array.toList_push, ?_⟩
    intro c mem
    rw [List.mem_singleton.mp mem]
    exact ⟨Nat.le_refl _, Nat.le_refl _⟩

theorem Steps.grows {b next : Builder α} (steps : Steps b next) : Grows b.line b next := by
  refine steps.keeps (P := fun other => Grows b.line b other) ?_ (.refl _ b)
  intro other next step h
  exact h.trans step.grows (Nat.le_trans h.line step.grows.line)

/-- **A line adds under its own number.** -/
theorem grows_takeLine (b : Builder α) (text : String) :
    Grows (b.line + 1) b (b.takeLine text) := by
  obtain ⟨line, commands, diagnostics⟩ := (steps_of_counted b text).grows
  exact ⟨Nat.le_trans (Nat.le_succ _) line, commands, diagnostics⟩

theorem grows_foldl_takeLine (lines : List String) (b : Builder α) :
    Grows (b.line + 1) b (lines.foldl takeLine b) := by
  induction lines generalizing b with
  | nil => exact .refl _ b
  | cons text rest ih =>
    refine (grows_takeLine b text).trans (ih _) ?_
    rw [line_takeLine]
    omega

theorem line_foldl_takeLine (lines : List String) (b : Builder α) :
    (lines.foldl takeLine b).line = b.line + lines.length := by
  induction lines generalizing b with
  | nil => rfl
  | cons text rest ih =>
    rw [List.foldl_cons, ih, line_takeLine, List.length_cons]
    omega

/-! ### Numbers that never go down -/

structure Numbered (b : Builder α) : Prop where
  commands : Ascends Command.line b.line b.commands
  diagnostics : Ascends Diagnostic.line b.line b.diagnostics

theorem numbered_of_start {setup : Setup α} {b : Builder α} (h : start setup = .ok b) :
    b.Numbered := by
  obtain ⟨-, rfl⟩ := eq_of_start h
  exact ⟨⟨.nil, by simp⟩, ⟨.nil, by simp⟩⟩

theorem Step.numbered {b next : Builder α} (step : Step b next) (h : b.Numbered) :
    next.Numbered :=
  ⟨h.commands.append step.grows.line step.grows.commands,
    h.diagnostics.append step.grows.line step.grows.diagnostics⟩

theorem line_taken {setup : Setup α} {b : Builder α} (h : start setup = .ok b)
    (lines : List String) : (lines.foldl takeLine b).line = lines.length := by
  rw [line_foldl_takeLine, line_of_start h, Nat.zero_add]

theorem numbered_taken {setup : Setup α} {b : Builder α} (h : start setup = .ok b)
    (lines : List String) : (lines.foldl takeLine b).Numbered :=
  (steps_foldl_takeLine lines b).keeps Step.numbered (numbered_of_start h)

/-- Each command knows its place. -/
def Indexed (b : Builder α) : Prop :=
  ∀ (i : Nat) (c : Command α), b.commands[i]? = some c → c.index = i

theorem indexed_of_start {setup : Setup α} {b : Builder α} (h : start setup = .ok b) :
    b.Indexed := by
  obtain ⟨-, rfl⟩ := eq_of_start h
  exact fun _ _ h => nomatch h

theorem Step.indexed {b next : Builder α} (step : Step b next) (h : b.Indexed) :
    next.Indexed := by
  cases step with
  | count => exact h
  | note => exact h
  | pause => exact h
  | remember => exact h
  | segment source after segment =>
    intro i c hc
    change (b.commands.push (b.commandOf source after segment))[i]? = some c at hc
    rw [Array.getElem?_push] at hc
    split at hc
    · rename_i last
      obtain rfl := Option.some.inj hc
      exact last.symm
    · exact h i c hc

/-- **No line changes what came of the lines before it.**  The commands and the findings
    after further lines begin with those of the earlier ones, in every field, and these are
    all that stands under the numbers of the earlier lines. -/
theorem keeps_earlier {setup : Setup α} (valid : setup.machine.check = .ok ()) :
    ∃ b, start setup = .ok b ∧ ∀ earlier later : List String,
      (∀ n, setup.machine.maxLines = some n → (earlier ++ later).length ≤ n) →
      ∃ before after, earlier.foldlM pushLine b = .ok before ∧
        (earlier ++ later).foldlM pushLine b = .ok after ∧
        before.commands.toList <+: after.commands.toList ∧
        before.diagnostics.toList <+: after.diagnostics.toList ∧
        after.commands.toList.filter (fun c => decide (c.line ≤ earlier.length)) =
          before.commands.toList ∧
        after.diagnostics.toList.filter (fun d => decide (d.line ≤ earlier.length)) =
          before.diagnostics.toList := by
  obtain ⟨b, started⟩ := exists_start valid
  refine ⟨b, started, ?_⟩
  intro earlier later within
  have line : b.line = 0 := line_of_start started
  have setup_eq : b.setup = setup := setup_of_start started
  have taken : ∀ lines : List String, lines.length ≤ (earlier ++ later).length →
      lines.foldlM pushLine b = .ok (lines.foldl takeLine b) := by
    intro lines short
    apply foldlM_pushLine
    intro n limit
    rw [setup_eq] at limit
    have := within n limit
    omega
  have before : (earlier.foldl takeLine b).line = earlier.length := line_taken started earlier
  have numbered := numbered_taken started earlier
  have grows := grows_foldl_takeLine later (earlier.foldl takeLine b)
  rw [← List.foldl_append, before] at grows
  refine ⟨_, _, taken earlier (by simp), taken (earlier ++ later) (Nat.le_refl _), ?_, ?_, ?_, ?_⟩
  · exact grows.commands.prefix
  · exact grows.diagnostics.prefix
  · exact grows.commands.filter_eq (before ▸ numbered.commands.le)
  · exact grows.diagnostics.filter_eq (before ▸ numbered.diagnostics.le)

/-- The later lines change the distance mode and the work offset, end the motion mode and
    pause. -/
theorem keeps_earlier_modes :
    let setup : Setup Float :=
      ⟨{ Parameters.ofRapidFeed 5000.0 with maxLines := some 4 }, .empty⟩
    let earlier := ["G1 X1 Q5"]
    let later := ["G91 G55 X2", "G80 X3", "G4 P1"]
    setup.machine.check = .ok () ∧ ∃ b before after, start setup = .ok b ∧
      earlier.foldlM pushLine b = .ok before ∧ (earlier ++ later).foldlM pushLine b = .ok after ∧
      before.commands.toList <+: after.commands.toList ∧
      before.diagnostics.toList <+: after.diagnostics.toList ∧
      (before.commands.size, after.commands.size) = (1, 2) ∧
      (before.diagnostics.size, after.diagnostics.size) = (2, 5) := by
  intro setup earlier later
  have valid : setup.machine.check = .ok () := by decide +kernel
  obtain ⟨b, started, keeps⟩ := keeps_earlier valid
  have within : ∀ n, setup.machine.maxLines = some n → (earlier ++ later).length ≤ n := by
    intro n limit
    cases limit
    decide
  obtain ⟨before, after, taken, taken', commands, diagnostics, -⟩ := keeps earlier later within
  have run : (start setup).toOption.map (fun b =>
      let sizes := fun lines : List String => (lines.foldlM pushLine b).toOption.map fun b =>
        (b.commands.size, b.diagnostics.size)
      (sizes earlier, sizes (earlier ++ later))) = some (some (1, 2), some (2, 5)) := by
    decide +kernel
  simp only [started, taken, taken', Except.toOption, Option.map_some, Option.some.injEq,
    Prod.mk.injEq] at run
  obtain ⟨⟨commandCount, findingCount⟩, commandCount', findingCount'⟩ := run
  refine ⟨valid, b, before, after, started, taken, taken', commands, diagnostics, ?_, ?_⟩
  · rw [commandCount, commandCount']
  · rw [findingCount, findingCount']

end Builder

/-- **The commands and the findings of a toolpath stand in the order of their lines**, and
    each command knows its place. -/
theorem Toolpath.ordered_of_build {setup : Setup α} {text : String} {path : Toolpath α}
    (built : Toolpath.build setup text = .ok path) :
    Ascends Command.line (programLines text).length path.commands ∧
      Ascends Diagnostic.line (programLines text).length path.diagnostics ∧
      ∀ (i : Nat) (c : Command α), path.commands[i]? = some c → c.index = i := by
  obtain ⟨b, started, finished⟩ := Toolpath.run_of_build built
  obtain ⟨commands, diagnostics, -⟩ := Builder.toolpath_of_finish finished
  have numbered := Builder.numbered_taken started (programLines text)
  have indexed := (Builder.steps_foldl_takeLine (programLines text) b).keeps Builder.Step.indexed
    (Builder.indexed_of_start started)
  rw [commands, diagnostics, ← Builder.line_taken started (programLines text)]
  exact ⟨numbered.commands, numbered.diagnostics, indexed⟩

theorem Toolpath.line_of_build {setup : Setup α} {text : String} {path : Toolpath α}
    (built : Toolpath.build setup text = .ok path) {c : Command α} (mem : c ∈ path.commands) :
    1 ≤ c.line ∧ c.line ≤ (programLines text).length := by
  obtain ⟨b, started, finished⟩ := Toolpath.run_of_build built
  obtain ⟨commands, -⟩ := Builder.toolpath_of_finish finished
  have grows := (Builder.grows_foldl_takeLine (programLines text) b).commands
  rw [← commands, Builder.line_foldl_takeLine] at grows
  obtain ⟨-, rfl⟩ := Builder.eq_of_start started
  simpa using grows.mem_of_empty mem

end NumericalControl
