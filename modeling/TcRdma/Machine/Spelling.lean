import Mathlib.Data.List.TakeWhile
import TcRdma.Machine.Getopt

namespace tc_rdma.machine

/-- What one or two elements of a command line are: short options behind one
dash, the last of which may have an argument in the same element or in the
next; a long option; or none. -/
inductive Spelling where
  | flags (cs : CString)
  | attached (cs : CString) (c : Char) (arg : CString)
  | separate (cs : CString) (c : Char) (arg : CString)
  | long (name : CString) (option : LongOption)
  | long_attached (name : CString) (option : LongOption) (arg : CString)
  | long_separate (name : CString) (option : LongOption) (arg : CString)
  | operand (element : CString)
  deriving DecidableEq, Repr

/-- How it is written. -/
def Spelling.elements : Spelling → List CString
  | .flags cs => ['-' :: cs]
  | .attached cs c arg => ['-' :: (cs ++ c :: arg)]
  | .separate cs c arg => ['-' :: (cs ++ [c]), arg]
  | .long name _ => ['-' :: '-' :: name]
  | .long_attached name _ arg => ['-' :: '-' :: (name ++ '=' :: arg)]
  | .long_separate name _ arg => ['-' :: '-' :: name, arg]
  | .operand element => [element]

/-- What it means. -/
def Spelling.answers : Spelling → List Answer
  | .flags cs => cs.map fun c => ⟨c, []⟩
  | .attached cs c arg => (cs.map fun c => ⟨c, []⟩) ++ [⟨c, arg⟩]
  | .separate cs c arg => (cs.map fun c => ⟨c, []⟩) ++ [⟨c, arg⟩]
  | .long _ option => [⟨option.val, []⟩]
  | .long_attached _ option arg => [⟨option.val, arg⟩]
  | .long_separate _ option arg => [⟨option.val, arg⟩]
  | .operand _ => []

variable (optstring : CString) (long_options : List LongOption)

/-- The characters are short options without an argument. -/
def Flags (cs : CString) : Prop := ∀ c ∈ cs, short_option optstring c = some false

instance (cs : CString) : Decidable (Flags optstring cs) :=
  List.decidableBAll (fun c => short_option optstring c = some false) cs

/-- The name can be that of this option. -/
def Names (name : CString) (option : LongOption) (has_arg : Bool) : Prop :=
  '=' ∉ name ∧ long_option long_options name = some option ∧ option.has_arg = has_arg

instance (name : CString) (option : LongOption) (has_arg : Bool) : Decidable (Names long_options name option has_arg) :=
  inferInstanceAs (Decidable ('=' ∉ name ∧ long_option long_options name = some option ∧ option.has_arg = has_arg))

/-- The options are among those that there are, and take the arguments that they have. -/
def Spelling.Valid : Spelling → Prop
  | .flags cs => cs ≠ [] ∧ cs.head? ≠ some '-' ∧ Flags optstring cs
  | .attached cs c arg =>
    (cs ++ [c]).head? ≠ some '-' ∧ Flags optstring cs ∧ short_option optstring c = some true ∧ arg ≠ []
  | .separate cs c _ => (cs ++ [c]).head? ≠ some '-' ∧ Flags optstring cs ∧ short_option optstring c = some true
  | .long name option => name ≠ [] ∧ Names long_options name option false
  | .long_attached name option _ => Names long_options name option true
  | .long_separate name option _ => name ≠ [] ∧ Names long_options name option true
  | .operand element => element.head? ≠ some '-' ∨ element = ['-']

instance : (spelling : Spelling) → Decidable (spelling.Valid optstring long_options)
  | .flags cs => inferInstanceAs (Decidable (cs ≠ [] ∧ cs.head? ≠ some '-' ∧ Flags optstring cs))
  | .attached cs c arg => inferInstanceAs (Decidable ((cs ++ [c]).head? ≠ some '-' ∧ Flags optstring cs ∧
    short_option optstring c = some true ∧ arg ≠ []))
  | .separate cs c _ => inferInstanceAs (Decidable ((cs ++ [c]).head? ≠ some '-' ∧ Flags optstring cs ∧
    short_option optstring c = some true))
  | .long name option => inferInstanceAs (Decidable (name ≠ [] ∧ Names long_options name option false))
  | .long_attached name option _ => inferInstanceAs (Decidable (Names long_options name option true))
  | .long_separate name option _ => inferInstanceAs (Decidable (name ≠ [] ∧ Names long_options name option true))
  | .operand element => inferInstanceAs (Decidable (element.head? ≠ some '-' ∨ element = ['-']))

variable {optstring long_options} {cs rest name arg : CString} {c : Char} {args : List CString} {option : LongOption}

theorem short_options_flags (h : Flags optstring cs) (rest : CString) :
    short_options optstring (cs ++ rest) =
      ((cs.map fun c => ⟨c, []⟩) ++ (short_options optstring rest).1, (short_options optstring rest).2) := by
  induction cs with
  | nil => rfl
  | cons c cs ih =>
    rw [List.cons_append, short_options, h c (by simp)]
    dsimp only
    rw [ih fun d hd => h d (by simp [hd])]
    rfl

theorem getopt_long_short (hhead : c ≠ '-') (args : List CString) :
    getopt_long optstring long_options none (('-' :: c :: rest) :: args) =
      (short_options optstring (c :: rest)).1 ++
        getopt_long optstring long_options (short_options optstring (c :: rest)).2 args := by
  rw [getopt_long]
  · intro hdash
    exact absurd hdash hhead
  · intro hdash
    exact absurd hdash hhead

theorem getopt_long_long (hname : name ≠ []) (args : List CString) :
    getopt_long optstring long_options none (('-' :: '-' :: name) :: args) =
      (long_element long_options name).1 ++
        getopt_long optstring long_options (long_element long_options name).2 args := by
  rw [getopt_long]
  intro hempty
  exact hname hempty

theorem long_element_plain {has_arg : Bool} (h : Names long_options name option has_arg) :
    long_element long_options name = if has_arg then ([], some option.val) else ([⟨option.val, []⟩], none) := by
  obtain ⟨hequals, hfound, hhas⟩ := h
  have hall : ∀ c ∈ name, (c != '=') = true := fun c hc => by
    simp only [bne_iff_ne, ne_eq]
    rintro rfl
    exact hequals hc
  rw [long_element, List.takeWhile_eq_self_iff.mpr hall, List.dropWhile_eq_nil_iff.mpr hall, hfound]
  dsimp only
  rw [hhas]
  cases has_arg <;> rfl

theorem long_element_attached (h : Names long_options name option true) (arg : CString) :
    long_element long_options (name ++ '=' :: arg) = ([⟨option.val, arg⟩], none) := by
  obtain ⟨hequals, hfound, hhas⟩ := h
  have hall : ∀ c ∈ name, (c != '=') = true := fun c hc => by
    simp only [bne_iff_ne, ne_eq]
    rintro rfl
    exact hequals hc
  have htake : (name ++ '=' :: arg).takeWhile (· != '=') = name := by
    rw [List.takeWhile_append_of_pos hall, List.takeWhile_cons_of_neg (by simp), List.append_nil]
  have hdrop : (name ++ '=' :: arg).dropWhile (· != '=') = '=' :: arg := by
    rw [List.dropWhile_append_of_pos hall, List.dropWhile_cons_of_neg (by simp)]
  rw [long_element, htake, hdrop, hfound]
  dsimp only
  rw [hhas]

/-- Whatever follows, an element is read as what it means. -/
theorem getopt_long_spelling {spelling : Spelling} (h : spelling.Valid optstring long_options) (args : List CString) :
    getopt_long optstring long_options none (spelling.elements ++ args) =
      spelling.answers ++ getopt_long optstring long_options none args := by
  cases spelling with
  | flags cs =>
    obtain ⟨hne, hhead, hflags⟩ := h
    have hread := short_options_flags hflags []
    rw [List.append_nil] at hread
    cases cs with
    | nil => exact absurd rfl hne
    | cons c cs =>
      rw [Spelling.elements, List.singleton_append, getopt_long_short (by simpa using hhead), hread]
      simp [short_options, Spelling.answers]
  | attached cs c arg =>
    obtain ⟨hhead, hflags, hoption, hne⟩ := h
    have hread := short_options_flags hflags (c :: arg)
    rw [short_options, hoption] at hread
    obtain ⟨x, xs, hx⟩ : ∃ x xs, cs ++ c :: arg = x :: xs := List.exists_cons_of_ne_nil (by simp)
    have hfirst : x ≠ '-' := by
      rintro rfl
      exact hhead (by rw [show (cs ++ [c]).head? = (cs ++ c :: arg).head? by cases cs <;> rfl, hx]; rfl)
    rw [Spelling.elements, List.singleton_append, hx, getopt_long_short hfirst, ← hx, hread]
    simp [hne, Spelling.answers]
  | separate cs c arg =>
    obtain ⟨hhead, hflags, hoption⟩ := h
    have hread := short_options_flags hflags [c]
    rw [short_options, hoption] at hread
    obtain ⟨x, xs, hx⟩ : ∃ x xs, cs ++ [c] = x :: xs := List.exists_cons_of_ne_nil (by simp)
    have hfirst : x ≠ '-' := by
      rintro rfl
      exact hhead (by rw [hx]; rfl)
    rw [Spelling.elements, List.cons_append, hx, getopt_long_short hfirst, ← hx, hread]
    simp [getopt_long, Spelling.answers]
  | long name option =>
    obtain ⟨hne, hnames⟩ := h
    rw [Spelling.elements, List.singleton_append, getopt_long_long hne, long_element_plain hnames]
    rfl
  | long_attached name option arg =>
    rw [Spelling.elements, List.singleton_append, getopt_long_long (by simp), long_element_attached h]
    rfl
  | long_separate name option arg =>
    obtain ⟨hne, hnames⟩ := h
    rw [Spelling.elements, List.cons_append, getopt_long_long hne, long_element_plain hnames]
    simp [getopt_long, Spelling.answers]
  | operand element =>
    rw [Spelling.elements, List.singleton_append, Spelling.answers, List.nil_append]
    rcases h with hhead | rfl
    · rw [getopt_long]
      · rintro rfl
        exact hhead rfl
      · rintro name rfl
        exact hhead rfl
      · rintro c rest rfl
        exact hhead rfl
    · rw [getopt_long] <;> simp

/-- A command line is read as what its elements mean, in their order. A bare
`--` ends it. -/
theorem getopt_long_spellings {spellings : List Spelling}
    (h : ∀ spelling ∈ spellings, spelling.Valid optstring long_options)
    (args : List CString) (hend : args = [] ∨ args.head? = some ['-', '-']) :
    getopt_long optstring long_options none (spellings.flatMap Spelling.elements ++ args) =
      spellings.flatMap Spelling.answers := by
  induction spellings with
  | nil =>
    rcases hend with rfl | hend
    · rfl
    · obtain ⟨rest, rfl⟩ := List.head?_eq_some_iff.mp hend
      rfl
  | cons spelling spellings ih =>
    rw [List.flatMap_cons, List.append_assoc, getopt_long_spelling (h spelling (by simp)),
      ih fun other hother => h other (by simp [hother]), List.flatMap_cons]

end tc_rdma.machine
