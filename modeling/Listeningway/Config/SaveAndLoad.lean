/- Listeningway/Config/SaveAndLoad
   source: src/config/store.cpp; src/config/settings_json.h
   digest: The settings after publish, save and load, and the store after any calls. -/

import Listeningway.Config.Persistence
import Listeningway.Config.SettingsParse

set_option autoImplicit false
set_option relaxedAutoImplicit false

namespace Listeningway.Config

variable {K : Type} [Field K] [LinearOrder K] [IsStrictOrderedRing K]

namespace Store

/-- `Store(path)`, its texts in their bytes. -/
def constructed : Store K ByteArray where
  settings := (Settings.defaults K).utf8.clampInPlace
  version := 1
  clamped := Settings.clampInPlace_clampInPlace _
  fits := first_version_fits

/-- `load` on the bytes of the file: a missing file, a parse error and a type error all throw
the document away. -/
def loadFile (r : Readers K) (parse : ByteArray → Option (Json K)) (st : Store K ByteArray)
    (file : File) : Bool × Store K ByteArray :=
  st.load (file.bind fun text => (parse text).bind (Settings.fromJson r))

/-- One call of a store, with the file that a `load` finds. -/
inductive Call (K : Type) where
  | load (file : File)
  | publish (s : Settings K ByteArray)
  | mutate (fn : Settings K ByteArray → Settings K ByteArray)

def call (r : Readers K) (parse : ByteArray → Option (Json K)) (st : Store K ByteArray) :
    Call K → Store K ByteArray
  | .load file => (st.loadFile r parse file).2
  | .publish s => st.publish s
  | .mutate fn => st.mutate fn

/-- The store after its constructor and the calls in their order. -/
def after (r : Readers K) (parse : ByteArray → Option (Json K)) (calls : List (Call K)) :
    Store K ByteArray :=
  calls.foldl (call r parse) constructed

/-- A save succeeds when it says so and the file system takes all that it writes. -/
def SaveSucceeds (dump : Json K → Option ByteArray) (st : Store K ByteArray) (disk : Disk)
    (file : File) : Prop :=
  (st.save dump disk file).1 = true ∧ disk.lost = 0

end Store

/-- The text of `j` parses to `j`, its members in the order of the map. -/
def ReadsBack (dump : Json K → Option ByteArray) (parse : ByteArray → Option (Json K))
    (j : Json K) : Prop :=
  ∀ text, dump j = some text → parse text = some j.ordered

/-! ### Loading -/

section Load

variable {S : Type} {st : Store K S} {file : Option (Settings K S)}

theorem load_failed (failed : (st.load file).1 = false) : (st.load file).2 = st := by
  cases file with
  | none => rfl
  | some loaded =>
    rw [Store.load] at failed ⊢
    split at failed
    · rename_i other
      rw [if_pos other]
    · cases failed

theorem load_current {loaded : Settings K S} (st : Store K S)
    (current : loaded.schemaVersion = kCurrentSchemaVersion) :
    st.load (some loaded) = (true, st.publish loaded) := by
  simp only [Store.load, ne_eq, current, not_true_eq_false, if_false]

end Load

/-! ### Clamping leaves what can be read back -/

theorem Settings.intsFit_clampInPlace {S : Type} {s : Settings K S} (fit : s.IntsFit) :
    s.clampInPlace.IntsFit := by
  have bandCount := s.inRange_clampInPlace.frequency.bandCount
  have fftSize := s.inRange_clampInPlace.frequency.fftSize
  exact
    { fit with
      bandCount := by unfold IsInt; omega
      fftSize := by unfold IsInt; omega }

theorem Settings.InRange.limits {S : Type} {s : Settings K S} (h : s.InRange) :
    s.frequency.minFreq < s.frequency.maxFreq := by
  have low := h.frequency.minFreq.2
  have high := h.frequency.maxFreq.1
  have apart : (500.0 : K) < 2000.0 := by norm_num
  exact low.trans_lt (apart.trans_le high)

/-! ### Saving and loading -/

variable {r : Readers K} {dump : Json K → Option ByteArray} {parse : ByteArray → Option (Json K)}

omit [IsStrictOrderedRing K] in
theorem Store.SaveSucceeds.file {st : Store K ByteArray} {disk : Disk} {file : File}
    (succeeds : st.SaveSucceeds dump disk file) :
    ∃ text, dump st.settings.toJson = some text ∧ (st.save dump disk file).2 = some text := by
  obtain ⟨said, whole⟩ := succeeds
  cases opens : disk.opens with
  | false =>
    rw [save_refused opens] at said
    cases said
  | true =>
    cases dumped : dump st.settings.toJson with
    | none =>
      rw [save_thrown opens dumped] at said
      cases said
    | some text =>
      refine ⟨text, rfl, ?_⟩
      rw [save_written opens dumped, whole, Nat.sub_zero, ByteArray.extract_zero_size]

theorem load_saved (written : r.ReadWritten) {st : Store K ByteArray} {disk : Disk} {file : File}
    (succeeds : st.SaveSucceeds dump disk file) (fit : st.settings.IntsFit)
    (current : st.settings.schemaVersion = kCurrentSchemaVersion)
    (inverse : ReadsBack dump parse st.settings.toJson) (other : Store K ByteArray) :
    other.loadFile r parse (st.save dump disk file).2 = (true, other.publish st.settings) := by
  obtain ⟨text, dumped, left⟩ := succeeds.file
  rw [left, Store.loadFile, Option.bind_some, inverse text dumped, Option.bind_some,
    Settings.fromJson_toJson written fit, load_current other current]

/-- Settings of the current schema survive publish, save and load as their clamped selves;
clamping twice is clamping once; whatever a store is asked to do, what it holds is in range;
and a load that fails changes nothing. -/
theorem settings_survive :
    (∀ (r : Readers K) (dump : Json K → Option ByteArray) (parse : ByteArray → Option (Json K))
        (st fresh : Store K ByteArray) (s : Settings K ByteArray) (disk : Disk) (file : File),
      s.schemaVersion = kCurrentSchemaVersion → s.IntsFit → r.ReadWritten →
      ReadsBack dump parse s.clampInPlace.toJson →
      (st.publish s).SaveSucceeds dump disk file →
      (fresh.loadFile r parse ((st.publish s).save dump disk file).2).1 = true ∧
        (fresh.loadFile r parse ((st.publish s).save dump disk file).2).2.snapshot =
          s.clampInPlace) ∧
    (∀ s : Settings K ByteArray, s.clampInPlace.clampInPlace = s.clampInPlace) ∧
    (∀ (r : Readers K) (parse : ByteArray → Option (Json K)) (calls : List (Store.Call K)),
      (Store.after r parse calls).snapshot.InRange ∧
        (Store.after r parse calls).snapshot.frequency.minFreq <
          (Store.after r parse calls).snapshot.frequency.maxFreq) ∧
    ∀ (r : Readers K) (parse : ByteArray → Option (Json K)) (st : Store K ByteArray)
        (file : File),
      (st.loadFile r parse file).1 = false →
        (st.loadFile r parse file).2.settings = st.settings ∧
          (st.loadFile r parse file).2.version = st.version := by
  refine ⟨?_, Settings.clampInPlace_clampInPlace, ?_, ?_⟩
  · intro r dump parse st fresh s disk file current fit written inverse succeeds
    have loaded :=
      load_saved written succeeds (Settings.intsFit_clampInPlace fit) current inverse fresh
    rw [loaded]
    exact ⟨rfl, s.clampInPlace_clampInPlace⟩
  · intro r parse calls
    have inRange := (Store.after r parse calls).settings_inRange
    exact ⟨inRange, inRange.limits⟩
  · intro r parse st file failed
    rw [Store.loadFile, load_failed failed]
    exact ⟨rfl, rfl⟩

/-- A hand-edited file: other modes, hosts and gains, some of them out of bounds. -/
def handEdited : Settings ℚ ByteArray :=
  let d := (Settings.defaults ℚ).utf8
  { d with
    audio := { d.audio with panOffset := -3, simdEnabled := false }
    beat := { d.beat with mode := .custom, profile := .sustained }
    frequency := { d.frequency with
      bandCount := 500
      bandScale := .log
      minFreq := 9000
      maxFreq := 100
      equalizerBands := ![9, 1, 0.5, -1, 1] }
    network := { d.network with
      osc := { d.network.osc with enabled := true, host := "10.0.0.7".toUTF8, rateHz := 200 }
      openrgb := { d.network.openrgb with brightness := 4, patternMatrix := .colorWash } } }

/-- A parser that knows the one document that is saved. -/
def parseEdited (text : ByteArray) : Option (Json ℚ) :=
  if Json.prettyDump handEdited.clampInPlace.toJson = some text then
    some handEdited.clampInPlace.toJson.ordered
  else none

/-- The edited settings, published, saved and loaded by a second store, are those of the first
one, within their bounds. -/
theorem edited_settings_survive :
    let saved := ((firstBoot.publish handEdited).save Json.prettyDump ⟨true, 0⟩ none).2
    let loaded := (Store.constructed (K := ℚ)).loadFile plainReaders parseEdited saved
    loaded.1 = true ∧ loaded.2.snapshot = handEdited.clampInPlace ∧
      loaded.2.snapshot ≠ handEdited := by
  have inverse : ReadsBack Json.prettyDump parseEdited handEdited.clampInPlace.toJson :=
    fun text dumped => if_pos dumped
  have ints : handEdited.IntsFit := by
    constructor <;> decide
  have valid : handEdited.clampInPlace.ValidTexts := by
    intro text held
    change text ∈ ["system".toUTF8, "10.0.0.7".toUTF8, "127.0.0.1".toUTF8] at held
    simp only [List.mem_cons, List.not_mem_nil, or_false] at held
    rcases held with rfl | rfl | rfl <;> exact String.isValidUTF8 _
  have succeeds : (firstBoot.publish handEdited).SaveSucceeds Json.prettyDump ⟨true, 0⟩ none := by
    obtain ⟨text, dumped, -⟩ := Json.serializes_prettyDump.exists_text valid
    exact ⟨congrArg Prod.fst (save_written rfl dumped), rfl⟩
  have survived := settings_survive.1 plainReaders Json.prettyDump parseEdited firstBoot
    Store.constructed handEdited ⟨true, 0⟩ none rfl ints plainReaders_readWritten inverse succeeds
  refine ⟨survived.1, survived.2, fun same => ?_⟩
  have changed := congrArg (fun s => s.frequency.bandCount) (survived.2.symm.trans same)
  exact absurd changed (by decide)

end Listeningway.Config
