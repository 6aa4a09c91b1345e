/- Listeningway/Config/Persistence
   source: src/config/store.cpp
   digest: What a save leaves in the settings file, for every way in which it can fail. -/

import Listeningway.Config.SettingsJson
import Listeningway.Config.Store
import Mathlib.Data.List.Sort

set_option autoImplicit false
set_option relaxedAutoImplicit false

namespace Listeningway.Config

variable {K S : Type} [Field K] [LinearOrder K]

/-! ### The file -/

/-- The bytes of the settings file, if there is one. -/
abbrev File := Option ByteArray

/-- How far the file system goes along with one `save`: whether the `ofstream` opens, and
how many bytes at the end of what is written never reach the file. -/
structure Disk where
  opens : Bool
  lost : ℕ

namespace Store

/-- Opening truncates; `dump` throws with nothing written yet, and the stream is not asked
whether it took what was written. -/
def save (dump : Json K → Option ByteArray) (st : Store K ByteArray) (disk : Disk)
    (file : File) : Bool × File :=
  if disk.opens then
    match dump st.snapshot.toJson with
    | some text => (true, some (text.extract 0 (text.size - disk.lost)))
    | none => (false, some ByteArray.empty)
  else (false, file)

/-- `file` is what the file parses to: nothing when it is missing, is no JSON, or has a
field of another type. -/
def load [IsStrictOrderedRing K] (st : Store K S) (file : Option (Settings K S)) :
    Bool × Store K S :=
  match file with
  | none => (false, st)
  | some loaded =>
    if loaded.schemaVersion ≠ kCurrentSchemaVersion then (false, st)
    else (true, st.publish loaded)

end Store

/-- What is relied on of `dump(2)`: it throws on the documents that are not UTF-8 and on no
others, and the text of an object is not empty. -/
structure Serializes (dump : Json K → Option ByteArray) : Prop where
  throws_iff : ∀ j, dump j = none ↔ ¬ j.WellFormed
  nonempty : ∀ fields, dump (.object fields) ≠ some ByteArray.empty

/-- A save that says it succeeded has left the whole document, and one that says it failed
has left the file as it was. -/
def AtomicSave (dump : Json K → Option ByteArray) (st : Store K ByteArray) (disk : Disk)
    (file : File) : Prop :=
  ((st.save dump disk file).1 = true →
    ∃ text, dump st.settings.toJson = some text ∧ (st.save dump disk file).2 = some text) ∧
  ((st.save dump disk file).1 = false → (st.save dump disk file).2 = file)

section Save

variable {dump : Json K → Option ByteArray} {st : Store K ByteArray} {disk : Disk} {file : File}

theorem save_refused (closed : disk.opens = false) : st.save dump disk file = (false, file) := by
  rw [Store.save, closed, if_neg Bool.false_ne_true]

theorem save_thrown (opens : disk.opens = true) (thrown : dump st.settings.toJson = none) :
    st.save dump disk file = (false, some ByteArray.empty) := by
  rw [Store.save, if_pos opens, Store.snapshot, thrown]

theorem save_written (opens : disk.opens = true) {text : ByteArray}
    (dumped : dump st.settings.toJson = some text) :
    st.save dump disk file = (true, some (text.extract 0 (text.size - disk.lost))) := by
  rw [Store.save, if_pos opens, Store.snapshot, dumped]

theorem extract_eq_self_iff {text : ByteArray} (filled : text ≠ ByteArray.empty) (lost : ℕ) :
    text.extract 0 (text.size - lost) = text ↔ lost = 0 := by
  constructor
  · intro whole
    have size := congrArg ByteArray.size whole
    rw [ByteArray.size_extract] at size
    have positive : text.size ≠ 0 := fun none => filled (ByteArray.size_eq_zero_iff.mp none)
    omega
  · rintro rfl
    exact ByteArray.extract_zero_size

theorem atomic_refused (closed : disk.opens = false) : AtomicSave dump st disk file := by
  unfold AtomicSave
  rw [save_refused closed]
  exact ⟨fun done => absurd done Bool.false_ne_true, fun _ => rfl⟩

theorem atomic_thrown_iff (opens : disk.opens = true) (thrown : dump st.settings.toJson = none) :
    AtomicSave dump st disk file ↔ file = some ByteArray.empty := by
  unfold AtomicSave
  rw [save_thrown opens thrown]
  constructor
  · exact fun law => (law.2 rfl).symm
  · exact fun empty => ⟨fun done => absurd done Bool.false_ne_true, fun _ => empty.symm⟩

theorem atomic_written_iff (opens : disk.opens = true) {text : ByteArray}
    (dumped : dump st.settings.toJson = some text) (filled : text ≠ ByteArray.empty) :
    AtomicSave dump st disk file ↔ disk.lost = 0 := by
  unfold AtomicSave
  rw [save_written opens dumped, dumped, ← extract_eq_self_iff filled]
  constructor
  · intro law
    obtain ⟨whole, same, left⟩ := law.1 rfl
    exact (Option.some.inj left).trans (Option.some.inj same).symm
  · intro whole
    refine ⟨fun _ => ⟨text, rfl, congrArg some whole⟩, fun failed => ?_⟩
    cases failed

omit [Field K] [LinearOrder K] in
theorem Serializes.exists_text (h : Serializes dump) {s : Settings K ByteArray}
    (valid : s.ValidTexts) :
    ∃ text, dump s.toJson = some text ∧ text ≠ ByteArray.empty := by
  cases dumped : dump s.toJson with
  | none => exact absurd (s.wellFormed_toJson_iff.mpr valid) ((h.throws_iff _).mp dumped)
  | some text =>
    refine ⟨text, rfl, ?_⟩
    rintro rfl
    exact h.nonempty _ dumped

omit [Field K] [LinearOrder K] in
theorem Serializes.throws (h : Serializes dump) {s : Settings K ByteArray}
    (broken : ¬ s.ValidTexts) : dump s.toJson = none := by
  rwa [h.throws_iff, Settings.wellFormed_toJson_iff]

/-- A save is honest exactly when the file cannot be opened, or the texts are UTF-8 and the
document reaches the file whole, or they are not and the file was empty before. -/
theorem save_atomic_iff (serializes : Serializes dump) (st : Store K ByteArray) (disk : Disk)
    (file : File) :
    AtomicSave dump st disk file ↔
      disk.opens = false ∨
      (st.settings.ValidTexts ∧ disk.lost = 0) ∨
      (¬ st.settings.ValidTexts ∧ file = some ByteArray.empty) := by
  cases opens : disk.opens with
  | false => exact iff_of_true (atomic_refused opens) (.inl rfl)
  | true =>
    by_cases valid : st.settings.ValidTexts
    · obtain ⟨text, dumped, filled⟩ := serializes.exists_text valid
      rw [atomic_written_iff opens dumped filled]
      simp only [valid, Bool.true_eq_false, true_and, not_true, false_and, or_false, false_or]
    · rw [atomic_thrown_iff opens (serializes.throws valid)]
      simp only [valid, Bool.true_eq_false, false_and, not_false_eq_true, true_and, false_or]

end Save

/-! ### The text of a document -/

namespace Json

/-- The decimals of `r / den`, at most `digits` of them. -/
def decimals (den : ℕ) : ℕ → ℕ → String
  | 0, _ => ""
  | digits + 1, r =>
    toString (10 * r / den) ++
      if 10 * r % den = 0 then "" else decimals den digits (10 * r % den)

def decimal (x : ℚ) : String :=
  (if x < 0 then "-" else "") ++ toString (x.num.natAbs / x.den) ++ "." ++
    decimals x.den 17 (x.num.natAbs % x.den)

def newline (depth : ℕ) : String := "\n" ++ String.ofList (List.replicate (2 * depth) ' ')

def block (opening closing : String) (depth : ℕ) : List String → String
  | [] => opening ++ closing
  | members =>
    opening ++ newline (depth + 1) ++
      String.intercalate ("," ++ newline (depth + 1)) members ++ newline depth ++ closing

mutual

/-- The layout of `dump(2)`, with the keys in order; texts are printed as they are. -/
def pretty (depth : ℕ) : Json ℚ → String
  | .null => "null"
  | .boolean b => toString b
  | .integer i => toString i
  | .number x => decimal x
  | .string text => "\"" ++ (String.fromUTF8? text).getD "" ++ "\""
  | .array items => block "[" "]" depth (prettyItems (depth + 1) items)
  | .object fields =>
    block "\x7b" "\x7d" depth ((prettyFields (depth + 1) fields).mergeSort (· ≤ ·))

def prettyItems (depth : ℕ) : List (Json ℚ) → List String
  | [] => []
  | item :: rest => item.pretty depth :: prettyItems depth rest

def prettyFields (depth : ℕ) : List (String × Json ℚ) → List String
  | [] => []
  | (key, value) :: rest => ("\"" ++ key ++ "\": " ++ value.pretty depth) :: prettyFields depth rest

end

def prettyDump (j : Json ℚ) : Option ByteArray :=
  if j.WellFormed then some (j.pretty 0).toUTF8 else none

theorem block_ne_empty (opening closing : String) (depth : ℕ) (members : List String)
    (filled : opening ≠ "") : block opening closing depth members ≠ "" := by
  intro empty
  unfold block at empty
  split at empty <;> simp only [String.append_eq_empty_iff] at empty <;> tauto

theorem serializes_prettyDump : Serializes prettyDump where
  throws_iff j := by
    unfold prettyDump
    split_ifs with whole <;> simp [whole]
  nonempty fields := by
    unfold prettyDump
    split_ifs with whole
    · intro empty
      have bytes : (pretty 0 (object fields)).toByteArray = "".toByteArray := Option.some.inj empty
      rw [String.toByteArray_inj, pretty] at bytes
      exact block_ne_empty _ _ _ _ (by decide) bytes
    · exact Option.some_ne_none _ ∘ Eq.symm

end Json

/-- The first boot: the defaults and no file yet. -/
def firstBoot : Store ℚ ByteArray where
  settings := (Settings.defaults ℚ).utf8.clampInPlace
  version := 1
  clamped := Settings.clampInPlace_clampInPlace _
  fits := Store.first_version_fits

theorem firstBoot_saved : AtomicSave Json.prettyDump firstBoot ⟨true, 0⟩ none :=
  (save_atomic_iff Json.serializes_prettyDump firstBoot ⟨true, 0⟩ none).mpr
    (.inr (.inl ⟨(Settings.defaults ℚ).validTexts_utf8, rfl⟩))

/-- On a disk that fills up, the save of the defaults leaves a part of the document and says
that it succeeded. -/
theorem full_disk_unnoticed :
    ¬ ∀ (dump : Json ℚ → Option ByteArray) (st : Store ℚ ByteArray) (disk : Disk) (file : File),
      Serializes dump → AtomicSave dump st disk file := by
  intro always
  have atomic := always Json.prettyDump firstBoot ⟨true, 480⟩ none Json.serializes_prettyDump
  have valid : firstBoot.settings.ValidTexts := (Settings.defaults ℚ).validTexts_utf8
  obtain ⟨text, dumped, filled⟩ := Json.serializes_prettyDump.exists_text valid
  have nothing := (atomic_written_iff rfl dumped filled).mp atomic
  exact absurd nothing (by decide)

end Listeningway.Config
