/-
  NumericalControl/Proofs/Offset/Work.lean
  ========================================
  **The case of a name does not matter.**  Two names are the same up to case when their
  letters are, one by one, and only the letters A to Z have two cases.  That is exactly when
  they are stored in the same form (`upperName_eq_iff`), so a table answers for a name with
  the last entry of the same name up to case, in whatever case either was given
  (`WorkOffsets.get?_ofInserts`).

  What is stored is in upper case.  So stored names that are the same up to case are equal,
  no two entries are told apart by case alone, and a table is determined by its answers to
  names: it is read back from its entries (`WorkOffsets.ofEntries_toEntries`).
-/
import Mathlib
import NumericalControl.Offset.Work
import NumericalControl.Proofs.Table

namespace NumericalControl

/-! ### Names up to case -/

/-- `d` is the small letter whose capital is `c`. -/
def IsCapitalOf (c d : Char) : Prop := c.isUpper ∧ d.toNat = c.toNat + 32

/-- The characters are equal, or the two cases of one letter. -/
def SameLetter (c d : Char) : Prop := c = d ∨ IsCapitalOf c d ∨ IsCapitalOf d c

instance : DecidableRel IsCapitalOf := fun _ _ => inferInstanceAs (Decidable (_ ∧ _))

instance : DecidableRel SameLetter := fun _ _ => inferInstanceAs (Decidable (_ ∨ _ ∨ _))

/-- The names are the same up to case. -/
def SameName (name other : String) : Prop := List.Forall₂ SameLetter name.toList other.toList

instance : DecidableRel SameName := fun _ _ => inferInstanceAs (Decidable (List.Forall₂ _ _ _))

theorem isUpper_iff {c : Char} : c.isUpper = true ↔ 65 ≤ c.toNat ∧ c.toNat ≤ 90 := by
  simp [Char.isUpper, UInt32.le_iff_toNat_le]

theorem isLower_iff {c : Char} : c.isLower = true ↔ 97 ≤ c.toNat ∧ c.toNat ≤ 122 := by
  simp [Char.isLower, UInt32.le_iff_toNat_le]

theorem toNat_toUpper_of_isLower {c : Char} (lower : c.isLower = true) :
    c.toUpper.toNat = c.toNat - 32 := by
  obtain ⟨low, high⟩ := isLower_iff.mp lower
  have valid : (c.toNat - 32).isValidChar := .inl (by omega)
  rw [Char.toUpper_eq_of_isLower lower, Char.toNat_ofNat, if_pos valid]

theorem toUpper_eq_iff {c d : Char} : c.toUpper = d.toUpper ↔ SameLetter c d := by
  unfold SameLetter IsCapitalOf
  rw [← Char.toNat_inj, ← Char.toNat_inj, isUpper_iff, isUpper_iff]
  by_cases lower : c.isLower = true <;> by_cases lower' : d.isLower = true
  · rw [toNat_toUpper_of_isLower lower, toNat_toUpper_of_isLower lower']
    rw [isLower_iff] at lower lower'
    omega
  · rw [toNat_toUpper_of_isLower lower, Char.toUpper_eq_of_not_isLower lower']
    rw [isLower_iff] at lower lower'
    omega
  · rw [Char.toUpper_eq_of_not_isLower lower, toNat_toUpper_of_isLower lower']
    rw [isLower_iff] at lower lower'
    omega
  · rw [Char.toUpper_eq_of_not_isLower lower, Char.toUpper_eq_of_not_isLower lower']
    rw [isLower_iff] at lower lower'
    omega

/-- **Names are stored alike exactly when they are the same up to case.** -/
theorem upperName_eq_iff {name other : String} :
    upperName name = upperName other ↔ SameName name other := by
  unfold upperName SameName
  rw [String.ofList_inj, ← List.forall₂_eq_eq_eq, List.forall₂_map_left_iff,
    List.forall₂_map_right_iff]
  simp only [toUpper_eq_iff]

theorem upperName_upperName (name : String) : upperName (upperName name) = upperName name := by
  unfold upperName
  rw [String.toList_ofList, List.map_map]
  exact congrArg String.ofList (List.map_congr_left fun c _ => c.toUpper_toUpper_eq_toUpper)

theorem isLower_of_mem_upperName {name : String} {c : Char} (mem : c ∈ (upperName name).toList) :
    c.isLower = false := by
  unfold upperName at mem
  rw [String.toList_ofList] at mem
  obtain ⟨d, -, rfl⟩ := List.mem_map.mp mem
  exact d.isLower_toUpper_eq_false

namespace WorkOffsets

variable {α : Type}

/-! ### Tables filled by inserting entries -/

/-- The table after entries are inserted in turn, empty before the first. -/
def ofInserts (entries : List (String × Position α)) : WorkOffsets α :=
  entries.foldl (fun offsets entry => offsets.insert entry.1 entry.2) empty

/-- The shift of the last entry whose name is the same up to case. -/
def lastNamed? (entries : List (String × Position α)) (name : String) : Option (Position α) :=
  (entries.filter fun entry => SameName entry.1 name).getLast?.map Prod.snd

theorem ofInserts_concat (entries : List (String × Position α)) (entry : String × Position α) :
    ofInserts (entries ++ [entry]) = (ofInserts entries).insert entry.1 entry.2 :=
  List.foldl_concat ..

theorem lastNamed?_concat (entries : List (String × Position α)) (entry : String × Position α)
    (name : String) : lastNamed? (entries ++ [entry]) name =
      if SameName entry.1 name then some entry.2 else lastNamed? entries name := by
  unfold lastNamed?
  rw [getLast?_filter_concat fun other : String × Position α => SameName other.1 name,
    apply_ite (Option.map Prod.snd)]
  rfl

/-- **A name answers with what was last inserted under it**, in whatever case. -/
theorem get?_ofInserts (entries : List (String × Position α)) (name : String) :
    (ofInserts entries).get? name = lastNamed? entries name := by
  induction entries using List.reverseRecOn with
  | nil => rfl
  | append_singleton earlier entry ih =>
    rw [ofInserts_concat, lastNamed?_concat, get?_insert, ih]
    simp only [eq_comm (a := upperName name), upperName_eq_iff]

theorem isSome_lastNamed? {entries : List (String × Position α)} {name : String} :
    (lastNamed? entries name).isSome ↔ ∃ entry ∈ entries, SameName entry.1 name := by
  simp [lastNamed?]

/-! ### What is stored -/

/-- All names are stored in upper case. -/
def IsUpper (offsets : WorkOffsets α) : Prop :=
  ∀ entry ∈ offsets.toEntries, upperName entry.1 = entry.1

theorem isUpper_ofInserts (entries : List (String × Position α)) :
    (ofInserts entries).IsUpper := by
  induction entries using List.reverseRecOn with
  | nil => exact List.forall_mem_nil _
  | append_singleton earlier entry ih =>
    rw [ofInserts_concat]
    intro stored mem
    rcases Table.mem_insertRow mem with rfl | mem
    · exact upperName_upperName entry.1
    · exact ih stored mem

section

variable {offsets : WorkOffsets α}

theorem IsUpper.isLower (upper : offsets.IsUpper) {entry : String × Position α}
    (mem : entry ∈ offsets.toEntries) {c : Char} (letter : c ∈ entry.1.toList) :
    c.isLower = false := by
  rw [← upper entry mem] at letter
  exact isLower_of_mem_upperName letter

/-- No two entries differ by case alone. -/
theorem IsUpper.distinct (upper : offsets.IsUpper) :
    offsets.toEntries.Pairwise fun p q => ¬SameName p.1 q.1 := by
  refine offsets.table.pairwise_ne.imp_of_mem fun {p q} memP memQ differ same => differ ?_
  rw [← upper p memP, ← upper q memQ]
  exact upperName_eq_iff.mpr same

theorem IsUpper.get?_eq_some_iff (upper : offsets.IsUpper) {name : String} {shift : Position α} :
    offsets.get? name = some shift ↔
      ∃ entry ∈ offsets.toEntries, SameName entry.1 name ∧ entry.2 = shift := by
  unfold get?
  rw [Table.get?_eq_some_iff]
  constructor
  · intro mem
    exact ⟨_, mem, upperName_eq_iff.mp (upperName_upperName name), rfl⟩
  · rintro ⟨⟨stored, shift⟩, mem, same, rfl⟩
    have form : stored = upperName name := (upper _ mem).symm.trans (upperName_eq_iff.mpr same)
    exact form ▸ mem

/-- A table of names in upper case is determined by its answers. -/
theorem IsUpper.ext_get? {other : WorkOffsets α} (upper : offsets.IsUpper)
    (upper' : other.IsUpper) (h : ∀ name, offsets.get? name = other.get? name) :
    offsets = other := by
  have tables : offsets.table = other.table := by
    refine Table.ext_get? fun key => Option.ext fun shift => ?_
    -- only keys in upper case are asked for by a name, and no others are stored
    by_cases form : upperName key = key
    · have same := h key
      unfold get? at same
      rw [← form, same]
    · rw [Table.get?_eq_some_iff, Table.get?_eq_some_iff]
      exact iff_of_false (fun mem => form (upper (key, shift) mem))
        fun mem => form (upper' (key, shift) mem)
  cases offsets
  cases other
  exact congrArg mk tables

end

/-! ### Tables from entries -/

/-- What is wrong with an entry behind the entries before it. -/
def entryFault? (earlier : List (String × Position α)) (entry : String × Position α) :
    Option (SetupFault α) :=
  if ∃ other ∈ earlier, SameName other.1 entry.1 then some (.repeatedName (upperName entry.1))
  else none

theorem faultless_entries_iff {entries : List (String × Position α)} :
    Faultless entryFault? entries ↔ entries.Pairwise fun p q => ¬SameName p.1 q.1 := by
  induction entries using List.reverseRecOn with
  | nil => exact iff_of_true faultless_nil .nil
  | append_singleton earlier entry ih =>
    rw [faultless_concat, ih, List.pairwise_append]
    simp [entryFault?]

/-- One entry is taken or refused. -/
theorem entryIntake : Intake entryFault?
    (fun (offsets : WorkOffsets α) (name, shift) =>
      if offsets.contains name then .error (.repeatedName (upperName name))
      else .ok (offsets.insert name shift))
    (fun offsets entries => offsets = ofInserts entries) := by
  have known (earlier : List (String × Position α)) (name : String) :
      (ofInserts earlier).contains name = true ↔ ∃ other ∈ earlier, SameName other.1 name := by
    rw [contains, get?_ofInserts, isSome_lastNamed?]
  constructor
  case takes =>
    rintro _ earlier ⟨name, shift⟩ rfl unfaulted
    refine ⟨_, if_neg fun repeated => ?_, (ofInserts_concat earlier (name, shift)).symm⟩
    cases (if_pos ((known earlier name).mp repeated)).symm.trans unfaulted
  case refuses =>
    rintro _ earlier ⟨name, shift⟩ fault rfl found
    unfold entryFault? at found
    split at found
    · rename_i repeated
      cases found
      exact if_pos ((known earlier name).mpr repeated)
    · cases found

theorem ofEntries_of_distinct {entries : List (String × Position α)}
    (distinct : entries.Pairwise fun p q => ¬SameName p.1 q.1) :
    ofEntries entries = .ok (ofInserts entries) := by
  obtain ⟨offsets, run, rfl⟩ :=
    entryIntake.exists_foldlM_eq_ok rfl (faultless_entries_iff.mpr distinct)
  exact run

theorem of_ofEntries {entries : List (String × Position α)} {offsets : WorkOffsets α}
    (run : ofEntries entries = .ok offsets) :
    (entries.Pairwise fun p q => ¬SameName p.1 q.1) ∧ offsets = ofInserts entries := by
  obtain ⟨clean, rfl⟩ := entryIntake.of_foldlM_eq_ok rfl run
  exact ⟨faultless_entries_iff.mp clean, rfl⟩

theorem lastNamed?_eq_some_iff {entries : List (String × Position α)}
    (distinct : entries.Pairwise fun p q => ¬SameName p.1 q.1) {name : String}
    {shift : Position α} : lastNamed? entries name = some shift ↔
      ∃ entry ∈ entries, SameName entry.1 name ∧ entry.2 = shift := by
  induction entries using List.reverseRecOn with
  | nil => simp [lastNamed?]
  | append_singleton earlier entry ih =>
    obtain ⟨inside, -, across⟩ := List.pairwise_append.mp distinct
    rw [lastNamed?_concat]
    split
    · rename_i same
      have gone : ∀ other ∈ earlier, ¬SameName other.1 name := by
        intro other mem named
        refine across other mem entry (List.mem_singleton_self entry) ?_
        rw [← upperName_eq_iff] at named same ⊢
        exact named.trans same.symm
      constructor
      · intro last
        exact ⟨entry, List.mem_concat_self, same, Option.some.inj last⟩
      · rintro ⟨other, mem, named, rfl⟩
        rcases List.mem_append.mp mem with mem | mem
        · exact absurd named (gone other mem)
        · rw [List.mem_singleton.mp mem]
    · rename_i differ
      rw [ih inside]
      simp only [List.mem_append, List.mem_singleton, or_and_right, exists_or, exists_eq_left,
        differ, false_and, or_false]

/-- **A table is read back from its entries.** -/
theorem ofEntries_toEntries {offsets : WorkOffsets α} (upper : offsets.IsUpper) :
    ofEntries offsets.toEntries = .ok offsets := by
  rw [ofEntries_of_distinct upper.distinct]
  refine congrArg Except.ok ((isUpper_ofInserts _).ext_get? upper fun name => ?_)
  refine Option.ext fun shift => ?_
  rw [get?_ofInserts, lastNamed?_eq_some_iff upper.distinct, upper.get?_eq_some_iff]

/-! ### One map, whatever the case -/

section

variable [Scalar α]

/-- What a table is after entries are inserted in turn. -/
structure FollowsInserts (inserts : List (String × Position α)) : Prop where
  get?_eq : ∀ name, (ofInserts inserts).get? name = lastNamed? inserts name
  contains_eq : ∀ name, (ofInserts inserts).contains name = (lastNamed? inserts name).isSome
  shift_eq : ∀ name, (ofInserts inserts).shift name = (lastNamed? inserts name).getD .zero
  upper : ∀ entry ∈ (ofInserts inserts).toEntries, ∀ c ∈ entry.1.toList, c.isLower = false
  distinct : (ofInserts inserts).toEntries.Pairwise fun p q => ¬SameName p.1 q.1
  readBack : ofEntries (ofInserts inserts).toEntries = .ok (ofInserts inserts)

omit [Scalar α] in
/-- What becomes of entries that are read. -/
structure ReadsEntries (entries : List (String × Position α)) : Prop where
  ok_iff : (∃ offsets, ofEntries entries = .ok offsets) ↔
    entries.Pairwise fun p q => ¬SameName p.1 q.1
  error_iff : ∀ fault, ofEntries entries = .error fault ↔ IsFirstFault entryFault? entries fault
  /-- A table that is read is one that entries are inserted into. -/
  eq_ofInserts : ∀ offsets, ofEntries entries = .ok offsets → offsets = ofInserts entries
  get?_iff : ∀ offsets, ofEntries entries = .ok offsets → ∀ name shift,
    offsets.get? name = some shift ↔ ∃ entry ∈ entries, SameName entry.1 name ∧ entry.2 = shift

/-- **Work offsets are one map from names up to case.** -/
theorem caseless_names (inserts entries : List (String × Position α)) :
    FollowsInserts inserts ∧ ReadsEntries entries := by
  have upper := isUpper_ofInserts inserts
  constructor
  · constructor
    case get?_eq => exact get?_ofInserts inserts
    case contains_eq => exact fun name => congrArg Option.isSome (get?_ofInserts inserts name)
    case shift_eq => exact fun name => congrArg (·.getD .zero) (get?_ofInserts inserts name)
    case upper => exact fun entry mem c letter => upper.isLower mem letter
    case distinct => exact upper.distinct
    case readBack => exact ofEntries_toEntries upper
  · constructor
    case ok_iff =>
      constructor
      · rintro ⟨offsets, run⟩
        exact (of_ofEntries run).1
      · intro distinct
        exact ⟨_, ofEntries_of_distinct distinct⟩
    case error_iff => exact fun fault => entryIntake.foldlM_eq_error_iff rfl
    case eq_ofInserts => exact fun offsets run => (of_ofEntries run).2
    case get?_iff =>
      intro offsets run name shift
      obtain ⟨distinct, rfl⟩ := of_ofEntries run
      rw [get?_ofInserts, lastNamed?_eq_some_iff distinct]

end

end WorkOffsets

end NumericalControl
