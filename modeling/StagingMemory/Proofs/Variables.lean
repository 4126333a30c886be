import Mathlib.Data.List.DropRight
import StagingMemory.Proofs.Naming
import StagingMemory.Sharing.Config
/-!
Settings read from variables, for every way in which the variables may be set: which texts denote a
count, which name is asked for, and which error is reported when several values are wrong. Main
statement: `SharingConfig.ofVariables_exact`.
-/
namespace Except

universe u v

variable {ε : Type u} {α : Type v} {β : Type v} {x : Except ε α} {f : α → Except ε β}

theorem bind_eq_ok_iff {b : β} : x >>= f = .ok b ↔ ∃ a, x = .ok a ∧ f a = .ok b := by
  cases x with
  | error e => exact ⟨nofun, nofun⟩
  | ok a =>
    constructor
    · exact fun h => ⟨a, rfl, h⟩
    · rintro ⟨_, ha, h⟩
      cases ha
      exact h

theorem bind_eq_error_iff {e : ε} :
    x >>= f = .error e ↔ x = .error e ∨ ∃ a, x = .ok a ∧ f a = .error e := by
  cases x with
  | error e' =>
    constructor
    · intro h
      cases h
      exact .inl rfl
    · rintro (h | ⟨_, ha, -⟩)
      · cases h
        rfl
      · cases ha
  | ok a =>
    constructor
    · exact fun h => .inr ⟨a, rfl, h⟩
    · rintro (h | ⟨_, ha, h⟩)
      · cases h
      · cases ha
        exact h

end Except

namespace StagingMemory

/-! ### Blanks around a text -/

namespace Text

def Blank (s : List Char) : Prop := ∀ c ∈ s, isBlank c = true

theorem trimChars_append {before middle after : List Char} (hbefore : Blank before)
    (hmiddle : ∀ c ∈ middle, isBlank c = false) (hne : middle ≠ []) (hafter : Blank after) :
    trimChars (before ++ middle ++ after) = middle := by
  obtain ⟨c, rest, rfl⟩ := List.exists_cons_of_ne_nil hne
  have hfront : (before ++ (c :: rest) ++ after).dropWhile isBlank = c :: rest ++ after := by
    rw [List.append_assoc, List.dropWhile_append_of_pos hbefore, List.cons_append,
      List.dropWhile_cons_of_neg (by simp [hmiddle c (by simp)])]
  have hback : Blank after.reverse := fun d hd => hafter d (List.mem_reverse.mp hd)
  unfold trimChars
  rw [hfront, List.reverse_append, List.dropWhile_append_of_pos hback]
  have hdone := trimChars_of_not_blank hmiddle
  unfold trimChars at hdone
  rwa [List.dropWhile_cons_of_neg (by simp [hmiddle c (by simp)])] at hdone

theorem exists_trimChars (s : List Char) :
    ∃ before after, s = before ++ trimChars s ++ after ∧ Blank before ∧ Blank after := by
  refine ⟨s.takeWhile isBlank, (s.dropWhile isBlank).rtakeWhile isBlank, ?_,
    fun _ => List.mem_takeWhile_imp, fun _ => List.mem_rtakeWhile_imp⟩
  have hback : trimChars s ++ (s.dropWhile isBlank).rtakeWhile isBlank = s.dropWhile isBlank :=
    List.rdropWhile_append_rtakeWhile
  rw [List.append_assoc, hback, List.takeWhile_append_dropWhile]

theorem isBlank_of_isDigit {c : Char} (h : c.isDigit = true) : isBlank c = false := by
  have hc : 48 ≤ c.toNat ∧ c.toNat ≤ 57 := by
    simpa [Char.isDigit, UInt32.le_iff_toNat_le] using h
  simp only [isBlank, blankRanges, List.any_cons, List.any_nil, Bool.or_false,
    Bool.or_eq_false_iff, Bool.and_eq_false_imp, decide_eq_true_eq, decide_eq_false_iff_not, not_le]
  omega

end Text

namespace SharingConfig

variable {lookup : String → Option String} {name value : String} {n : UInt32}

/-! ### Counts -/

/-- An optional plus sign, and digits of the value of the count. -/
def Spells (chars : List Char) (n : UInt32) : Prop :=
  ∃ sign digits, chars = sign ++ digits ∧ (sign = [] ∨ sign = ['+']) ∧ digits ≠ [] ∧
    (∀ c ∈ digits, c.isDigit = true) ∧ Nat.ofDigitChars 10 digits 0 = n.toNat

/-- The value spells the count, with blanks around it or without. -/
def Denotes (value : String) (n : UInt32) : Prop :=
  ∃ before middle after, value.toList = before ++ middle ++ after ∧
    Text.Blank before ∧ Spells middle n ∧ Text.Blank after

/-- What digits without a sign are read as. -/
def readDigits? (digits : List Char) : Option UInt32 :=
  if digits ≠ [] ∧ digits.all Char.isDigit ∧ digitsValue digits < UInt32.size then
    some (UInt32.ofNat (digitsValue digits))
  else none

theorem readDigits?_eq_some_iff {digits : List Char} :
    readDigits? digits = some n ↔
      digits ≠ [] ∧ (∀ c ∈ digits, c.isDigit = true) ∧ Nat.ofDigitChars 10 digits 0 = n.toNat := by
  have hvalue : digitsValue digits = Nat.ofDigitChars 10 digits 0 := rfl
  unfold readDigits?
  simp only [hvalue, List.all_eq_true]
  constructor
  · intro h
    split at h
    case isTrue hdigits =>
      obtain ⟨hne, hall, hlt⟩ := hdigits
      cases h
      exact ⟨hne, hall, (UInt32.toNat_ofNat_of_lt' hlt).symm⟩
    case isFalse => cases h
  · rintro ⟨hne, hall, hn⟩
    rw [hn, if_pos ⟨hne, hall, n.toNat_lt⟩, UInt32.ofNat_toNat]

theorem parseCountChars?_plus (rest : List Char) :
    parseCountChars? ('+' :: rest) = readDigits? rest := rfl

theorem parseCountChars?_of_head? {chars : List Char} (h : chars.head? ≠ some '+') :
    parseCountChars? chars = readDigits? chars := by
  simp only [parseCountChars?]
  split
  case h_1 => exact absurd rfl h
  case h_2 => rfl

theorem head?_ne_plus {digits : List Char} (h : ∀ c ∈ digits, c.isDigit = true) :
    digits.head? ≠ some '+' := by
  intro hplus
  have hmem : '+' ∈ digits := List.mem_of_mem_head? hplus
  exact absurd (h '+' hmem) (by decide)

theorem parseCountChars?_eq_some_iff {chars : List Char} :
    parseCountChars? chars = some n ↔ Spells chars n := by
  constructor
  · intro h
    by_cases hplus : chars.head? = some '+'
    · obtain ⟨rest, rfl⟩ := List.head?_eq_some_iff.mp hplus
      rw [parseCountChars?_plus] at h
      exact ⟨['+'], rest, rfl, .inr rfl, readDigits?_eq_some_iff.mp h⟩
    · rw [parseCountChars?_of_head? hplus] at h
      exact ⟨[], chars, rfl, .inl rfl, readDigits?_eq_some_iff.mp h⟩
  · rintro ⟨sign, digits, rfl, rfl | rfl, hdigits⟩
    · rw [List.nil_append, parseCountChars?_of_head? (head?_ne_plus hdigits.2.1)]
      exact readDigits?_eq_some_iff.mpr hdigits
    · exact (parseCountChars?_plus digits).trans (readDigits?_eq_some_iff.mpr hdigits)

namespace Spells

variable {chars : List Char}

theorem ne_nil (h : Spells chars n) : chars ≠ [] := by
  obtain ⟨sign, digits, rfl, -, hne, -⟩ := h
  exact List.append_ne_nil_of_right_ne_nil sign hne

theorem not_blank (h : Spells chars n) : ∀ c ∈ chars, Text.isBlank c = false := by
  obtain ⟨sign, digits, rfl, hsign, -, hdigits, -⟩ := h
  intro c hc
  cases List.mem_append.mp hc with
  | inl hmem =>
    rcases hsign with rfl | rfl
    · cases hmem
    · rw [List.mem_singleton.mp hmem]
      decide
  | inr hmem => exact Text.isBlank_of_isDigit (hdigits c hmem)

theorem decimal (n : UInt32) : Spells (toString n).toList n := by
  have htext : (toString n).toList = Nat.toDigits 10 n.toNat := by
    show (toString n.toNat).toList = _
    rw [Nat.toString_eq_ofList_toDigits, String.toList_ofList]
  rw [htext]
  exact ⟨[], _, rfl, .inl rfl, Nat.toDigits_ne_nil,
    fun c => Nat.isDigit_of_mem_toDigits (by decide) (by decide), Nat.ofDigitChars_ten_toDigits⟩

end Spells

theorem parseCount?_eq_some_iff : parseCount? value = some n ↔ Denotes value n := by
  constructor
  · intro h
    obtain ⟨before, after, heq, hbefore, hafter⟩ := Text.exists_trimChars value.toList
    exact ⟨before, _, after, heq, hbefore, parseCountChars?_eq_some_iff.mp h, hafter⟩
  · rintro ⟨before, middle, after, heq, hbefore, hmiddle, hafter⟩
    unfold parseCount?
    rw [heq, Text.trimChars_append hbefore hmiddle.not_blank hmiddle.ne_nil hafter]
    exact parseCountChars?_eq_some_iff.mpr hmiddle

/-- Every count reads back from its decimal text, with any blanks around it. -/
theorem parseCount?_decimal {before after : String} (hbefore : Text.Blank before.toList)
    (hafter : Text.Blank after.toList) (n : UInt32) :
    parseCount? (before ++ toString n ++ after) = some n := by
  rw [parseCount?_eq_some_iff]
  exact ⟨_, _, _, by rw [String.toList_append, String.toList_append], hbefore, .decimal n, hafter⟩

/-! ### Single variables -/

theorem readCount_eq_ok_iff {count : Option UInt32} :
    readCount lookup name = .ok count ↔ Option.Rel Denotes (lookup name) count := by
  unfold readCount
  cases lookup name with
  | none => cases count <;> simp
  | some value =>
    cases count with
    | none => cases hparse : parseCount? value <;> simp [hparse]
    | some n =>
      rw [Option.rel_some_some, ← parseCount?_eq_some_iff]
      cases hparse : parseCount? value <;> simp [hparse]

def Invalid (lookup : String → Option String) (name value : String) : Prop :=
  lookup name = some value ∧ ∀ n, ¬ Denotes value n

theorem readCount_eq_error_iff {e : ConfigError} :
    readCount lookup name = .error e ↔
      ∃ value, Invalid lookup name value ∧ e = .invalidVariable name value := by
  unfold readCount Invalid
  simp only [← parseCount?_eq_some_iff]
  cases lookup name with
  | none => simp
  | some value => cases hparse : parseCount? value <;> simp [hparse, eq_comm]

theorem readCount_eq_invalid_iff {reported : String} :
    readCount lookup name = .error (.invalidVariable reported value) ↔
      reported = name ∧ Invalid lookup reported value := by
  rw [readCount_eq_error_iff]
  constructor
  · rintro ⟨_, hinvalid, h⟩
    cases h
    exact ⟨rfl, hinvalid⟩
  · rintro ⟨rfl, hinvalid⟩
    exact ⟨value, hinvalid, rfl⟩

theorem exists_readCount_ok_iff :
    (∃ count, readCount lookup name = .ok count) ↔ ∀ value, ¬ Invalid lookup name value := by
  constructor
  · rintro ⟨count, hok⟩ value hinvalid
    have herror := readCount_eq_error_iff.mpr ⟨value, hinvalid, rfl⟩
    cases hok.symm.trans herror
  · intro hvalid
    cases hread : readCount lookup name with
    | ok count => exact ⟨count, rfl⟩
    | error e =>
      obtain ⟨value, hinvalid, -⟩ := readCount_eq_error_iff.mp hread
      exact absurd hinvalid (hvalid value)

/-- The name that is asked for: a set name, whatever it is, or else the name of a set session. -/
def askedName (lookup : String → Option String) : Option String :=
  (lookup "STAGEALLOC_SEGMENT").or ((lookup "STAGEALLOC_SESSION").map ("/stagealloc." ++ ·))

theorem readSegment_eq (lookup : String → Option String) :
    readSegment lookup = match askedName lookup with
      | some text => SegmentName.ofText text
      | none => .error (.missingVariable "STAGEALLOC_SEGMENT") := by
  unfold readSegment askedName segmentVariable sessionVariable
  cases lookup "STAGEALLOC_SEGMENT" with
  | some text => rfl
  | none => cases lookup "STAGEALLOC_SESSION" <;> rfl

theorem readSegment_eq_ok_iff {segment : SegmentName} :
    readSegment lookup = .ok segment ↔ askedName lookup = some segment.text := by
  rw [readSegment_eq]
  cases askedName lookup with
  | none => simp
  | some text =>
    rw [Option.some.injEq, SegmentName.ofText_eq_ok_iff]
    constructor
    · exact fun h => h.2.symm
    · rintro rfl
      exact ⟨segment.valid, rfl⟩

theorem readSegment_eq_error_iff {e : ConfigError} :
    readSegment lookup = .error e ↔
      (askedName lookup = none ∧ e = .missingVariable "STAGEALLOC_SEGMENT") ∨
        ∃ text, askedName lookup = some text ∧
          ∃ rule : NameRule, rule.FirstBroken text ∧ e = .invalidName text rule := by
  rw [readSegment_eq]
  cases askedName lookup with
  | none => simp [eq_comm]
  | some text => simp [SegmentName.ofText_eq_error_iff_firstBroken]

theorem askedName_eq_none_iff :
    askedName lookup = none ↔
      lookup "STAGEALLOC_SEGMENT" = none ∧ lookup "STAGEALLOC_SESSION" = none := by
  simp [askedName]

/-! ### All variables -/

theorem ofVariables_eq_ok_iff {config : SharingConfig} :
    ofVariables lookup = .ok config ↔
      ∃ segment, readSegment lookup = .ok segment ∧
        ∃ rank, readCount lookup rankVariable = .ok rank ∧
          ∃ participants, readCount lookup participantsVariable = .ok participants ∧
            config = { ofSegment segment with rank := rank.getD 0, participants } := by
  unfold ofVariables
  simp only [Except.bind_eq_ok_iff]
  simp [pure, Except.pure, eq_comm]

theorem ofVariables_eq_error_iff {e : ConfigError} :
    ofVariables lookup = .error e ↔
      readSegment lookup = .error e ∨
        ∃ segment, readSegment lookup = .ok segment ∧
          (readCount lookup rankVariable = .error e ∨
            ∃ rank, readCount lookup rankVariable = .ok rank ∧
              readCount lookup participantsVariable = .error e) := by
  unfold ofVariables
  simp only [Except.bind_eq_error_iff]
  simp [pure, Except.pure]

/-- Every outcome of reading the variables, with the variables that lead to it. -/
structure Exact (lookup : String → Option String) : Prop where
  missing : ∀ name, ofVariables lookup = .error (.missingVariable name) ↔
    name = "STAGEALLOC_SEGMENT" ∧
      lookup "STAGEALLOC_SEGMENT" = none ∧ lookup "STAGEALLOC_SESSION" = none
  misnamed : ∀ text (rule : NameRule), ofVariables lookup = .error (.invalidName text rule) ↔
    askedName lookup = some text ∧ rule.FirstBroken text
  /-- The rank is reported before the size of the group, and both after the name. -/
  invalid : ∀ name value, ofVariables lookup = .error (.invalidVariable name value) ↔
    (∃ segment : SegmentName, askedName lookup = some segment.text) ∧
      (name = "LOCAL_RANK" ∧ Invalid lookup name value ∨
        (∀ earlier, ¬ Invalid lookup "LOCAL_RANK" earlier) ∧
          name = "LOCAL_WORLD_SIZE" ∧ Invalid lookup name value)
  read : ∀ config, ofVariables lookup = .ok config ↔
    ∃ segment : SegmentName, askedName lookup = some segment.text ∧
      ∃ rank, Option.Rel Denotes (lookup "LOCAL_RANK") rank ∧
        ∃ participants, Option.Rel Denotes (lookup "LOCAL_WORLD_SIZE") participants ∧
          config = { ofSegment segment with rank := rank.getD 0, participants }
  decimal : ∀ (before after : String) (n m : UInt32), Text.Blank before.toList →
    Text.Blank after.toList → (Denotes (before ++ toString n ++ after) m ↔ m = n)

theorem ofVariables_exact (lookup : String → Option String) : Exact lookup where
  missing name := by
    simp only [ofVariables_eq_error_iff, readSegment_eq_error_iff, readCount_eq_error_iff]
    simp [askedName_eq_none_iff, and_comm]
  misnamed text rule := by
    simp only [ofVariables_eq_error_iff, readSegment_eq_error_iff, readCount_eq_error_iff]
    simp
  invalid name value := by
    have hnamed : readSegment lookup ≠ .error (.invalidVariable name value) := by
      simp [readSegment_eq_error_iff]
    simp only [ofVariables_eq_error_iff, hnamed, false_or, readSegment_eq_ok_iff,
      readCount_eq_invalid_iff, exists_and_right, exists_readCount_ok_iff]
    rfl
  read config := by
    rw [ofVariables_eq_ok_iff]
    simp only [readSegment_eq_ok_iff, readCount_eq_ok_iff]
    rfl
  decimal before after n m hbefore hafter := by
    rw [← parseCount?_eq_some_iff, parseCount?_decimal hbefore hafter, Option.some.injEq, eq_comm]

end SharingConfig
end StagingMemory
