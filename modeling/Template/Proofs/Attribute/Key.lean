import Template.Attribute.Key
import Template.Proofs.Text.Uppercase

/-!
# Keys that are keyed again

The keys of an object are looked at a second time when the object is merged with attribute
blocks, so a key should stand for itself.  It does, with one kind of exception: a name may
lose its hyphens to one of the three names that have a rule of their own (`Respells`), as
`class-name` loses it to `className`.

Which names do that is read off from the way back.  A small letter is never the work of a
hyphen, so the letters of the key are those of the name, and hyphens can only stand behind
them or in front of the capital letter of `className`.
-/

namespace Template.AttributeKey

open Template.Text

variable {raised : Bool} {text front target : List Char} {name key : String}

/-! ## Raised texts -/

/-- A number of hyphens. -/
def hyphens (count : Nat) : List Char :=
  List.replicate count '-'

theorem raiseFrom_hyphens_append (raised : Bool) (count : Nat) (text : List Char) :
    raiseFrom raised (hyphens count ++ text) = raiseFrom (raised || 0 < count) text := by
  induction count generalizing raised with
  | zero => simp [hyphens]
  | succ count inductionHypothesis =>
      have step : raiseFrom raised (hyphens (count + 1) ++ text) =
          raiseFrom true (hyphens count ++ text) := rfl
      rw [step, inductionHypothesis]
      simp

theorem raiseFrom_hyphens (raised : Bool) (count : Nat) :
    raiseFrom raised (hyphens count) = [] := by
  have alone := raiseFrom_hyphens_append raised count []
  rwa [List.append_nil] at alone

theorem raiseFrom_append (noHyphen : '-' ∉ front) (text : List Char) :
    raiseFrom false (front ++ text) = front ++ raiseFrom false text := by
  induction front with
  | nil => rfl
  | cons char front inductionHypothesis =>
      rw [List.mem_cons, not_or] at noHyphen
      simp [raiseFrom, Ne.symm noHyphen.1, inductionHypothesis noHyphen.2]

/-- No hyphen is left. -/
theorem hyphen_notMem_raiseFrom (raised : Bool) (text : List Char) :
    '-' ∉ raiseFrom raised text := by
  induction text generalizing raised with
  | nil => simp [raiseFrom]
  | cons char text inductionHypothesis =>
      rw [raiseFrom]
      split
      next => exact inductionHypothesis true
      next other =>
        rw [List.mem_append, not_or]
        refine ⟨?_, inductionHypothesis false⟩
        intro membership
        apply other
        cases raised with
        | true =>
            rw [eq_hyphen_of_mem_uppercase membership]
            rfl
        | false =>
            rw [← List.mem_singleton.mp membership]
            rfl

/-! ## The way back -/

/-- Behind hyphens there is nothing or a character that is put into upper case. -/
theorem raiseFrom_true_cases (text : List Char) :
    (∃ count, text = hyphens count ∧ raiseFrom true text = []) ∨
    ∃ count char rest, text = hyphens count ++ char :: rest ∧
      raiseFrom true text = uppercase char ++ raiseFrom false rest := by
  induction text with
  | nil => exact .inl ⟨0, rfl, rfl⟩
  | cons char text inductionHypothesis =>
      by_cases hyphen : char = '-'
      · subst hyphen
        have step : raiseFrom true ('-' :: text) = raiseFrom true text := rfl
        rcases inductionHypothesis with ⟨count, split, raises⟩ | ⟨count, char, rest, split, raises⟩
        · exact .inl ⟨count + 1, by rw [split]; rfl, step.trans raises⟩
        · exact .inr ⟨count + 1, char, rest, by rw [split]; rfl, step.trans raises⟩
      · exact .inr ⟨0, char, text, rfl, by simp [raiseFrom, hyphen]⟩

/-- What comes first is the name's own character, or it begins the upper-case form of one
behind hyphens. -/
theorem raiseFrom_false_cases {char : Char} (raises : raiseFrom false text = char :: target) :
    (∃ rest, text = char :: rest ∧ raiseFrom false rest = target) ∨
    ∃ count initial rest uppers, text = hyphens (count + 1) ++ initial :: rest ∧
      uppercase initial = char :: uppers ∧ uppers ++ raiseFrom false rest = target := by
  cases text with
  | nil => cases raises
  | cons first rest =>
      by_cases hyphen : first = '-'
      · subst hyphen
        have behind : raiseFrom true rest = char :: target := raises
        rcases raiseFrom_true_cases rest with ⟨_, -, nothing⟩ | ⟨count, initial, rest, rfl, capital⟩
        · rw [nothing] at behind
          cases behind
        · obtain ⟨upper, uppers, upperEq⟩ := List.exists_cons_of_ne_nil (uppercase_ne_nil initial)
          rw [capital, upperEq, List.cons_append, List.cons.injEq] at behind
          obtain ⟨rfl, others⟩ := behind
          exact .inr ⟨count, initial, rest, uppers, rfl, upperEq, others⟩
      · have step : raiseFrom false (first :: rest) = first :: raiseFrom false rest := by
          simp [raiseFrom, hyphen]
        rw [step, List.cons.injEq] at raises
        exact .inl ⟨rest, by rw [raises.1], raises.2⟩

/-- A small letter is not the work of a hyphen. -/
theorem exists_cons_of_raiseFrom {char : Char} (lower : char.isLower = true)
    (raises : raiseFrom false text = char :: target) :
    ∃ rest, text = char :: rest ∧ raiseFrom false rest = target := by
  rcases raiseFrom_false_cases raises with own | ⟨_, initial, _, uppers, -, capital, -⟩
  · exact own
  · have notLower : char.isLower = false :=
      not_isLower_of_mem_uppercase (by rw [capital]; exact List.mem_cons_self)
    rw [lower] at notLower
    cases notLower

theorem exists_append_of_raiseFrom (lower : ∀ char ∈ front, char.isLower = true)
    (raises : raiseFrom false text = front ++ target) :
    ∃ rest, text = front ++ rest ∧ raiseFrom false rest = target := by
  induction front generalizing text with
  | nil => exact ⟨text, rfl, raises⟩
  | cons char front inductionHypothesis =>
      rw [List.forall_mem_cons] at lower
      obtain ⟨others, rfl, raisesOthers⟩ := exists_cons_of_raiseFrom lower.1 raises
      obtain ⟨rest, rfl, raisesRest⟩ := inductionHypothesis lower.2 raisesOthers
      exact ⟨rest, rfl, raisesRest⟩

theorem exists_hyphens_of_raiseFrom_true (raises : raiseFrom true text = []) :
    ∃ count, text = hyphens count := by
  rcases raiseFrom_true_cases text with ⟨count, split, -⟩ | ⟨_, char, _, -, capital⟩
  · exact ⟨count, split⟩
  · rw [capital, List.append_eq_nil_iff] at raises
    exact absurd raises.1 (uppercase_ne_nil char)

/-- Small letters are what they are raised to, with hyphens behind them. -/
theorem raiseFrom_eq_lower_iff {word : List Char} (lower : ∀ char ∈ word, char.isLower = true) :
    raiseFrom false text = word ↔ ∃ count, text = word ++ hyphens count := by
  constructor
  · intro raises
    obtain ⟨rest, rfl, nothing⟩ :=
      exists_append_of_raiseFrom lower (raises.trans (List.append_nil word).symm)
    cases rest with
    | nil => exact ⟨0, rfl⟩
    | cons char rest =>
        by_cases hyphen : char = '-'
        · subst hyphen
          obtain ⟨count, rfl⟩ := exists_hyphens_of_raiseFrom_true nothing
          exact ⟨count + 1, rfl⟩
        · simp [raiseFrom, hyphen] at nothing
  · rintro ⟨count, rfl⟩
    have noHyphen : '-' ∉ word := by
      intro membership
      cases lower '-' membership
    rw [raiseFrom_append noHyphen, raiseFrom_hyphens, List.append_nil]

/-- A capital `N` is the name's own, or that of either letter behind hyphens. -/
theorem exists_initial_of_raiseFrom (raises : raiseFrom false text = 'N' :: target) :
    ∃ inner initial rest, initial ∈ ['n', 'N'] ∧ (initial = 'N' ∨ 0 < inner) ∧
      text = hyphens inner ++ initial :: rest ∧ raiseFrom false rest = target := by
  rcases raiseFrom_false_cases raises with
    ⟨rest, rfl, others⟩ | ⟨count, initial, rest, uppers, rfl, capital, others⟩
  · exact ⟨0, 'N', rest, by decide, .inl rfl, rfl, others⟩
  · obtain ⟨isInitial, rfl⟩ := uppercase_eq_cons_N capital
    exact ⟨count + 1, initial, rest, isInitial, .inr (Nat.succ_pos count), rfl, others⟩

/-! ## Names with a rule of their own -/

/-- The names that are neither kept nor raised. -/
def reserved : List String := ["class", "className", "for"]

theorem mem_reserved_iff : key ∈ reserved ↔ key = "class" ∨ key = "className" ∨ key = "for" := by
  simp [reserved]

theorem hyphen_notMem_of_mem_reserved (isReserved : key ∈ reserved) : '-' ∉ key.toList := by
  have noHyphen : ∀ key ∈ reserved, '-' ∉ key.toList := by decide
  exact noHyphen key isReserved

/-- The names that lose their hyphens to one with a rule of its own.  The hyphens stand
behind it, and those in `className` also in front of its capital letter. -/
inductive Respells : (key : String) → (name : List Char) → Prop where
  | behind {key : String} (isReserved : key ∈ reserved) (count : Nat) :
      Respells key (key.toList ++ hyphens (count + 1))
  | between {initial : Char} (isInitial : initial ∈ ['n', 'N']) (inner trailing : Nat) :
      Respells "className" ("class".toList ++
        (hyphens (inner + 1) ++ initial :: ("ame".toList ++ hyphens trailing)))

namespace Respells

variable {text : List Char}

theorem isReserved (respells : Respells key text) : key ∈ reserved := by
  cases respells with
  | behind isReserved => exact isReserved
  | between => decide

theorem hyphen_mem (respells : Respells key text) : '-' ∈ text := by
  cases respells with
  | behind => simp [hyphens]
  | between => simp [hyphens]

theorem raises (respells : Respells key text) : raiseFrom false text = key.toList := by
  cases respells with
  | behind isReserved count =>
      rw [raiseFrom_append (hyphen_notMem_of_mem_reserved isReserved), raiseFrom_hyphens,
        List.append_nil]
  | @between initial isInitial inner trailing =>
      have capital : uppercase initial = ['N'] := by
        obtain rfl | rfl : initial = 'n' ∨ initial = 'N' := by simpa using isInitial
        · decide +kernel
        · decide +kernel
      have visible : initial ≠ '-' := by
        rintro rfl
        simp at isInitial
      have behind : raiseFrom true (initial :: ("ame".toList ++ hyphens trailing)) =
          'N' :: raiseFrom false ("ame".toList ++ hyphens trailing) := by
        simp [raiseFrom, visible, capital]
      rw [raiseFrom_append (by decide), raiseFrom_hyphens_append]
      simp only [Nat.succ_pos, decide_true, Bool.or_true]
      rw [behind, raiseFrom_append (by decide), raiseFrom_hyphens]
      rfl

theorem noPrefix (respells : Respells key text) :
    ¬ "data-".toList <+: text ∧ ¬ "aria-".toList <+: text := by
  rw [← List.isPrefixOf_iff_prefix, ← List.isPrefixOf_iff_prefix, Bool.not_eq_true,
    Bool.not_eq_true]
  cases respells with
  | behind isReserved count =>
      rcases mem_reserved_iff.mp isReserved with rfl | rfl | rfl
      · exact ⟨rfl, rfl⟩
      · exact ⟨rfl, rfl⟩
      · exact ⟨rfl, rfl⟩
  | between => exact ⟨rfl, rfl⟩

theorem of_lower (isReserved : key ∈ reserved)
    (lower : ∀ char ∈ key.toList, char.isLower = true) (hyphen : '-' ∈ text)
    (raises : raiseFrom false text = key.toList) : Respells key text := by
  obtain ⟨count, rfl⟩ := (raiseFrom_eq_lower_iff lower).mp raises
  cases count with
  | zero =>
      rw [hyphens, List.replicate_zero, List.append_nil] at hyphen
      cases lower '-' hyphen
  | succ count => exact .behind isReserved count

theorem of_className (hyphen : '-' ∈ text)
    (raises : raiseFrom false text = "className".toList) : Respells "className" text := by
  have classLower : ∀ char ∈ "class".toList, char.isLower = true :=
    List.all_eq_true.mp (by decide)
  have ameLower : ∀ char ∈ "ame".toList, char.isLower = true := List.all_eq_true.mp (by decide)
  have spelled : "className".toList = "class".toList ++ 'N' :: "ame".toList := by decide
  rw [spelled] at raises
  obtain ⟨rest, rfl, capital⟩ := exists_append_of_raiseFrom classLower raises
  obtain ⟨inner, initial, rest, isInitial, raised, rfl, small⟩ :=
    exists_initial_of_raiseFrom capital
  obtain ⟨trailing, rfl⟩ := (raiseFrom_eq_lower_iff ameLower).mp small
  cases inner with
  | succ inner => exact .between isInitial inner trailing
  | zero =>
      -- The capital letter is the name's own, so the hyphen is behind it.
      obtain rfl : initial = 'N' := by simpa using raised
      cases trailing with
      | zero => simp [hyphens] at hyphen
      | succ trailing => exact .behind (by decide) trailing

end Respells

theorem respells_iff {text : List Char} :
    Respells key text ↔
      key ∈ reserved ∧ '-' ∈ text ∧ raiseFrom false text = key.toList := by
  constructor
  · intro respells
    exact ⟨respells.isReserved, respells.hyphen_mem, respells.raises⟩
  · rintro ⟨isReserved, hyphen, raises⟩
    rcases mem_reserved_iff.mp isReserved with rfl | rfl | rfl
    · exact .of_lower isReserved (List.all_eq_true.mp (by decide)) hyphen raises
    · exact .of_className hyphen raises
    · exact .of_lower isReserved (List.all_eq_true.mp (by decide)) hyphen raises

/-! ## Keys -/

/-- What a name can become, and when. -/
theorem ofName_cases (name : String) :
    (name = "class" ∨ name = "className") ∧ ofName name = .classes ∨
    name = "for" ∧ ofName name = .plain "htmlFor" ∨
    "data-".toList <+: name.toList ∧ ofName name = .data name ∨
    name ∉ reserved ∧ ("aria-".toList <+: name.toList ∨ '-' ∉ name.toList) ∧
      ofName name = .plain name ∨
    '-' ∈ name.toList ∧ ofName name = .plain (raiseHyphens name) := by
  unfold ofName
  simp only [Bool.or_eq_true, beq_iff_eq, List.isPrefixOf_iff_prefix, List.contains_iff_mem]
  by_cases isClass : name = "class" ∨ name = "className"
  · exact .inl ⟨isClass, if_pos isClass⟩
  by_cases isFor : name = "for"
  · exact .inr (.inl ⟨isFor, by rw [if_neg isClass, if_pos isFor]⟩)
  rw [if_neg isClass, if_neg isFor]
  have free : name ∉ reserved := by
    simpa [mem_reserved_iff, isFor] using isClass
  by_cases isData : "data-".toList <+: name.toList
  · exact .inr (.inr (.inl ⟨isData, if_pos isData⟩))
  rw [if_neg isData]
  by_cases isAria : "aria-".toList <+: name.toList
  · exact .inr (.inr (.inr (.inl ⟨free, .inl isAria, if_pos isAria⟩)))
  rw [if_neg isAria]
  by_cases hyphen : '-' ∈ name.toList
  · exact .inr (.inr (.inr (.inr ⟨hyphen, if_pos hyphen⟩)))
  · exact .inr (.inr (.inr (.inl ⟨free, .inr hyphen, if_neg hyphen⟩)))

theorem ofName_eq_classes_iff : ofName name = .classes ↔ name = "class" ∨ name = "className" := by
  constructor
  · intro found
    rcases ofName_cases name with
      ⟨isClass, -⟩ | ⟨-, other⟩ | ⟨-, other⟩ | ⟨-, -, other⟩ | ⟨-, other⟩
    · exact isClass
    all_goals
      rw [found] at other
      cases other
  · rintro (rfl | rfl)
    · rfl
    · rfl

theorem ofName_eq_data (found : ofName name = .data key) :
    key = name ∧ "data-".toList <+: name.toList := by
  rcases ofName_cases name with
    ⟨-, other⟩ | ⟨-, other⟩ | ⟨isData, other⟩ | ⟨-, -, other⟩ | ⟨-, other⟩
  all_goals
    rw [other] at found
    cases found
  exact ⟨rfl, isData⟩

/-- A name without hyphens is kept unless it has a rule of its own. -/
theorem ofName_eq_self_iff (noHyphen : '-' ∉ key.toList) :
    ofName key = .plain key ↔ key ∉ reserved := by
  rcases ofName_cases key with
    ⟨rfl | rfl, -⟩ | ⟨rfl, -⟩ | ⟨isData, -⟩ | ⟨free, -, kept⟩ | ⟨hyphen, -⟩
  · decide
  · decide
  · decide
  · exact absurd (isData.mem (by decide)) noHyphen
  · simp [free, kept]
  · exact absurd hyphen noHyphen

theorem ofName_of_respells (respells : Respells key name.toList) : ofName name = .plain key := by
  have free : name ∉ reserved :=
    fun isReserved => hyphen_notMem_of_mem_reserved isReserved respells.hyphen_mem
  rcases ofName_cases name with
    ⟨rfl | rfl, -⟩ | ⟨rfl, -⟩ | ⟨isData, -⟩ | ⟨-, isAria | unhyphened, -⟩ | ⟨-, raised⟩
  · exact absurd (by decide) free
  · exact absurd (by decide) free
  · exact absurd (by decide) free
  · exact absurd isData respells.noPrefix.1
  · exact absurd isAria respells.noPrefix.2
  · exact absurd respells.hyphen_mem unhyphened
  · rw [raised, raiseHyphens, respells.raises, String.ofList_toList]

/-- A key that does not stand for itself is one with a rule of its own, spelled with
hyphens. -/
theorem Respells.of_unstable (found : ofName name = .plain key)
    (unstable : ofName key ≠ .plain key) : Respells key name.toList := by
  rcases ofName_cases name with
    ⟨-, other⟩ | ⟨-, other⟩ | ⟨-, other⟩ | ⟨-, -, other⟩ | ⟨hyphen, other⟩
  all_goals
    rw [other] at found
    cases found
  · exact absurd (by decide) unstable
  · exact absurd other unstable
  · have noHyphen : '-' ∉ (raiseHyphens name).toList := by
      rw [raiseHyphens, String.toList_ofList]
      exact hyphen_notMem_raiseFrom false name.toList
    rw [ne_eq, ofName_eq_self_iff noHyphen, Decidable.not_not] at unstable
    refine respells_iff.mpr ⟨unstable, hyphen, ?_⟩
    rw [raiseHyphens, String.toList_ofList]

theorem Respells.unstable {text : List Char} (respells : Respells key text) :
    ofName key ≠ .plain key := by
  have changes : ∀ key ∈ reserved, ofName key ≠ .plain key := by decide
  exact changes key respells.isReserved

/-- A key stands for itself, unless the name lost its hyphens to one with a rule of its
own. -/
theorem ofName_again_iff (name : String) :
    (∀ key, ofName name = .data key → ofName key = .data key) ∧
    ∀ key, ofName name = .plain key ∧ ofName key ≠ .plain key ↔ Respells key name.toList := by
  constructor
  · intro key found
    obtain ⟨rfl, -⟩ := ofName_eq_data found
    exact found
  · intro key
    constructor
    · rintro ⟨found, unstable⟩
      exact .of_unstable found unstable
    · intro respells
      exact ⟨ofName_of_respells respells, respells.unstable⟩

/-- Hyphens between and behind the letters lead to keys with a rule of their own. -/
theorem ofName_again_className :
    (ofName "class-name" = .plain "className" ∧ ofName "className" = .classes) ∧
      (ofName "class-" = .plain "class" ∧ ofName "class" = .classes) ∧
      ofName "for-" = .plain "for" ∧ ofName "for" = .plain "htmlFor" := by
  decide +kernel

end Template.AttributeKey
