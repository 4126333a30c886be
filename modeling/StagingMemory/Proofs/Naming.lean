import Mathlib.Data.List.Basic
import StagingMemory.SegmentName
/-!
Names of segments, from the text that is asked for to the bytes that the kernel reads. The rules of
a name are stated one by one as they are documented, and the error names the first that is broken.
A byte below 128 stands in an encoded text only where the character with its code stands, so no name
holds the zero byte at which the kernel would stop reading. Main statement:
`SegmentName.naming_exact`.
-/
namespace StagingMemory

/-! ### Encoded text -/

namespace Text

def bytes (s : String) : List UInt8 := s.toUTF8.data.toList

theorem bytes_eq_flatMap (s : String) : bytes s = s.toList.flatMap String.utf8EncodeChar := by
  unfold bytes
  rw [String.toUTF8_eq_toByteArray, ← String.utf8Encode_toList]
  exact List.toList_data_toByteArray

theorem bytes_injective : Function.Injective bytes := by
  intro s t h
  apply String.toByteArray_inj.mp
  apply ByteArray.ext
  exact Array.toList_inj.mp h

theorem bytes_append (s t : String) : bytes (s ++ t) = bytes s ++ bytes t := by
  simp [bytes_eq_flatMap]

theorem ofNat_eq_iff {b : UInt8} {n : Nat} (hn : n < 256) : b = .ofNat n ↔ n = b.toNat := by
  rw [← UInt8.toNat_inj, UInt8.toNat_ofNat_of_lt' hn]
  exact eq_comm

/-- A byte below 128 stands for the character with its code, and for nothing else. -/
theorem mem_utf8EncodeChar_iff {b : UInt8} (hb : b.toNat < 128) (c : Char) :
    b ∈ String.utf8EncodeChar c ↔ c.toNat = b.toNat := by
  have hvalue : c.val.toNat = c.toNat := rfl
  -- Every byte of a longer code is at least 128.
  fun_cases String.utf8EncodeChar c with
  | case1 v h =>
    rw [List.mem_singleton, ofNat_eq_iff (by omega)]
    omega
  | case2 v h _ =>
    simp only [List.mem_cons, List.not_mem_nil, or_false]
    rw [ofNat_eq_iff (by omega), ofNat_eq_iff (by omega)]
    omega
  | case3 v h _ _ =>
    simp only [List.mem_cons, List.not_mem_nil, or_false]
    rw [ofNat_eq_iff (by omega), ofNat_eq_iff (by omega), ofNat_eq_iff (by omega)]
    omega
  | case4 v h _ _ =>
    simp only [List.mem_cons, List.not_mem_nil, or_false]
    rw [ofNat_eq_iff (by omega), ofNat_eq_iff (by omega), ofNat_eq_iff (by omega),
      ofNat_eq_iff (by omega)]
    omega

theorem mem_bytes_iff {c : Char} (hc : c.toNat < 128) (s : String) :
    .ofNat c.toNat ∈ bytes s ↔ c ∈ s.toList := by
  have hcode : (UInt8.ofNat c.toNat).toNat = c.toNat :=
    UInt8.toNat_ofNat_of_lt' (Nat.lt_trans hc (by decide))
  rw [bytes_eq_flatMap, List.mem_flatMap]
  constructor
  · rintro ⟨d, hd, hmem⟩
    rw [mem_utf8EncodeChar_iff (by omega), hcode] at hmem
    rwa [← Char.toNat_inj.mp hmem]
  · intro hmem
    exact ⟨c, hmem, (mem_utf8EncodeChar_iff (by omega) c).mpr hcode.symm⟩

end Text

/-! ### The rules -/

namespace NameRule

def Holds (text : String) : NameRule → Prop
  | startsWithSlash => ['/'] <+: text.toList
  | notEmpty => 2 ≤ (Text.bytes text).length
  | notTooLong => (Text.bytes text).length ≤ 255
  | noSecondSlash => text.toList.count '/' ≤ 1
  | noZero => '\x00' ∉ text.toList

instance (text : String) : DecidablePred (Holds text) := fun rule => by
  cases rule <;> unfold Holds <;> infer_instance

def order : List NameRule := [startsWithSlash, notEmpty, notTooLong, noSecondSlash, noZero]

def FirstBroken (text : String) (rule : NameRule) : Prop :=
  ¬ rule.Holds text ∧ ∃ before after, order = before ++ rule :: after ∧
    ∀ earlier ∈ before, earlier.Holds text

theorem mem_order (rule : NameRule) : rule ∈ order := by
  cases rule <;> decide

theorem startsWithSlash_iff {text : String} :
    startsWithSlash.Holds text ↔ text.toList.head? = some '/' := by
  unfold Holds
  cases text.toList with
  | nil => simp
  | cons c rest => simp [eq_comm]

/-- After the first slash there may be no other. -/
theorem noSecondSlash_iff {text : String} (h : startsWithSlash.Holds text) :
    noSecondSlash.Holds text ↔ '/' ∉ text.toList.tail := by
  obtain ⟨rest, hrest⟩ := h
  unfold Holds
  rw [← hrest]
  simp [List.count_eq_zero]

/-- The first slash is one byte, so the bytes behind it encode the characters behind it. -/
theorem bytes_eq_slash_cons {text : String} (h : startsWithSlash.Holds text) :
    Text.bytes text = 47 :: Text.bytes (.ofList text.toList.tail) := by
  obtain ⟨rest, hrest⟩ := h
  simp only [Text.bytes_eq_flatMap, ← hrest, String.toList_ofList]
  rfl

theorem brokenNameRule?_eq_find? (text : String) :
    brokenNameRule? text = order.find? fun rule => ¬ rule.Holds text := by
  have hempty : notEmpty.Holds text ↔ ¬ text.utf8ByteSize < 2 := Nat.not_lt.symm
  have hlong : notTooLong.Holds text ↔ ¬ 255 < text.utf8ByteSize := Nat.not_lt.symm
  have hzero : noZero.Holds text ↔ '\x00' ∉ text.toList := Iff.rfl
  unfold brokenNameRule?
  by_cases hslash : startsWithSlash.Holds text
  · rw [if_neg (not_not.mpr (startsWithSlash_iff.mp hslash))]
    have hsecond := noSecondSlash_iff hslash
    simp only [order, List.find?_cons, List.find?_nil, hslash, hempty, hlong, hsecond, hzero]
    split_ifs <;> simp_all
  · rw [if_pos (mt startsWithSlash_iff.mpr hslash)]
    simp [order, hslash]

theorem brokenNameRule?_eq_some_iff {text : String} {rule : NameRule} :
    brokenNameRule? text = some rule ↔ rule.FirstBroken text := by
  rw [brokenNameRule?_eq_find?, List.find?_eq_some_iff_append]
  simp [FirstBroken]

theorem brokenNameRule?_eq_none_iff {text : String} :
    brokenNameRule? text = none ↔ ∀ rule : NameRule, rule.Holds text := by
  rw [brokenNameRule?_eq_find?, List.find?_eq_none]
  simp [mem_order]

end NameRule

/-! ### Names -/

namespace SegmentName

variable {text session : String} {name : SegmentName}

theorem exists_ofText_iff :
    (∃ name, ofText text = .ok name) ↔ ∀ rule : NameRule, rule.Holds text := by
  rw [← NameRule.brokenNameRule?_eq_none_iff]
  constructor
  · rintro ⟨name, h⟩
    exact (ofText_eq_ok_iff.mp h).1
  · intro h
    exact ⟨⟨text, h⟩, ofText_eq_ok_iff.mpr ⟨h, rfl⟩⟩

theorem ofText_eq_error_iff_firstBroken {e : ConfigError} :
    ofText text = .error e ↔
      ∃ rule : NameRule, rule.FirstBroken text ∧ e = .invalidName text rule := by
  simp only [ofText_eq_error_iff, NameRule.brokenNameRule?_eq_some_iff]

theorem holds (name : SegmentName) (rule : NameRule) : rule.Holds name.text :=
  NameRule.brokenNameRule?_eq_none_iff.mp name.valid rule

/-! ### What the kernel reads -/

theorem zero_notMem_bytes (name : SegmentName) : 0 ∉ Text.bytes name.text :=
  mt (Text.mem_bytes_iff (c := '\x00') (by decide) name.text).mp (name.holds .noZero)

theorem objectName_eq (name : SegmentName) : name.objectName = Text.bytes name.text :=
  if_neg name.zero_notMem_bytes

theorem objectName_injective : Function.Injective objectName := by
  intro name name' h
  rw [objectName_eq, objectName_eq] at h
  cases name
  cases name'
  congr 1
  exact Text.bytes_injective h

/-- Whatever stands in memory behind the zero byte, the kernel reads the name back. -/
theorem takeWhile_objectName (name : SegmentName) (rest : List UInt8) :
    (name.objectName ++ 0 :: rest).takeWhile (· ≠ 0) = Text.bytes name.text := by
  rw [objectName_eq, List.takeWhile_append_of_pos]
  · simp
  · intro b hb
    exact decide_eq_true fun h => name.zero_notMem_bytes (h ▸ hb)

/-! ### Sessions -/

/-- A session is short enough and holds neither a slash nor the zero character. -/
def Fits (session : String) : Prop :=
  (Text.bytes session).length ≤ 243 ∧ '/' ∉ session.toList ∧ '\x00' ∉ session.toList

theorem holds_session_iff :
    (∀ rule : NameRule, rule.Holds (sessionStart ++ session)) ↔ Fits session := by
  have hchars : (sessionStart ++ session).toList = sessionStart.toList ++ session.toList :=
    String.toList_append
  have hlength : (Text.bytes (sessionStart ++ session)).length =
      12 + (Text.bytes session).length := by
    rw [Text.bytes_append, List.length_append]
    rfl
  constructor
  · intro h
    have hlong : (Text.bytes (sessionStart ++ session)).length ≤ 255 := h .notTooLong
    have hslash : (sessionStart ++ session).toList.count '/' ≤ 1 := h .noSecondSlash
    have hzero : '\x00' ∉ (sessionStart ++ session).toList := h .noZero
    rw [hchars] at hslash hzero
    rw [List.count_append] at hslash
    have hone : sessionStart.toList.count '/' = 1 := by decide
    refine ⟨by omega, List.count_eq_zero.mp (by omega), ?_⟩
    exact fun h => hzero (List.mem_append_right _ h)
  · rintro ⟨hlong, hslash, hzero⟩ rule
    cases rule with
    | startsWithSlash =>
      show ['/'] <+: _
      rw [hchars]
      exact List.IsPrefix.trans (by decide) (List.prefix_append ..)
    | notEmpty =>
      show 2 ≤ (Text.bytes _).length
      omega
    | notTooLong =>
      show (Text.bytes _).length ≤ 255
      omega
    | noSecondSlash =>
      show List.count '/' _ ≤ 1
      rw [hchars, List.count_append, List.count_eq_zero.mpr hslash]
      decide
    | noZero =>
      show '\x00' ∉ _
      rw [hchars, List.mem_append]
      rintro (h | h)
      · revert h
        decide
      · exact hzero h

theorem exists_ofSession_iff : (∃ name, ofSession session = .ok name) ↔ Fits session :=
  exists_ofText_iff.trans holds_session_iff

theorem text_ofSession (h : ofSession session = .ok name) : name.text = sessionStart ++ session :=
  (ofText_eq_ok_iff.mp h).2

theorem ofSession_injective {session' : String} (h : ofSession session = .ok name)
    (h' : ofSession session' = .ok name) : session = session' := by
  have heq : sessionStart ++ session = sessionStart ++ session' :=
    (text_ofSession h).symm.trans (text_ofSession h')
  exact String.append_right_inj _ |>.mp heq

/-! ### Names, errors and objects together -/

/-- Which texts and sessions become names, and what a name is to the kernel. -/
structure Exact : Prop where
  accepts : ∀ text, (∃ name, ofText text = .ok name) ↔ ∀ rule : NameRule, rule.Holds text
  keeps : ∀ text name, ofText text = .ok name → name.text = text
  refuses : ∀ text e, ofText text = .error e ↔
    ∃ rule : NameRule, rule.FirstBroken text ∧ e = .invalidName text rule
  /-- Cutting off the slash leaves whole characters. -/
  cuts : ∀ text, NameRule.startsWithSlash.Holds text →
    Text.bytes text = 47 :: Text.bytes (.ofList text.toList.tail)
  /-- The kernel is handed every byte of the name, and reads all of them back. -/
  handed : ∀ name : SegmentName, name.objectName = Text.bytes name.text ∧
    ∀ rest, (name.objectName ++ 0 :: rest).takeWhile (· ≠ 0) = Text.bytes name.text
  distinct : Function.Injective objectName
  sessions : ∀ session, (∃ name, ofSession session = .ok name) ↔ Fits session
  spelled : ∀ session name, ofSession session = .ok name → name.text = "/stagealloc." ++ session
  apart : ∀ session session' name, ofSession session = .ok name → ofSession session' = .ok name →
    session = session'

theorem naming_exact : Exact where
  accepts _ := exists_ofText_iff
  keeps _ _ h := (ofText_eq_ok_iff.mp h).2
  refuses _ _ := ofText_eq_error_iff_firstBroken
  cuts _ := NameRule.bytes_eq_slash_cons
  handed name := ⟨name.objectName_eq, name.takeWhile_objectName⟩
  distinct := objectName_injective
  sessions _ := exists_ofSession_iff
  spelled _ _ := text_ofSession
  apart _ _ _ := ofSession_injective

end SegmentName

end StagingMemory
