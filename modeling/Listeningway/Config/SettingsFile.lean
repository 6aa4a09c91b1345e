/- Listeningway/Config/SettingsFile
   source: src/config/settings_json.h; src/config/store.cpp
   digest: What a settings file with any members loads as, and when it loads at all. -/

import Listeningway.Config.SaveAndLoad

/-!
The `_WITH_DEFAULT` macros read a document by its known members alone. So a document loads as
its completion does: the document of the defaults with the known members of the file in it. A
member that is there must be of the right shape, wherever it is.
-/

set_option autoImplicit false
set_option relaxedAutoImplicit false

namespace Listeningway.Config

variable {K : Type}

/-- What is documented of the readers beyond what the settings write: `null` for a struct has all
the fields at their defaults or throws, as the version has it, and `value` of what is neither
`null` nor an object throws. -/
structure Readers.Documented (r : Readers K) : Prop extends r.ReadWritten where
  value_null : ∀ {T : Type} (key : String) (get : Json K → Option T) (default : T),
    r.value .null key get default = if r.takesNull then some default else none
  value_other : ∀ {T : Type} {j : Json K} (key : String) (get : Json K → Option T) (default : T),
    j ≠ .null → (∀ fields, j ≠ .object fields) → r.value j key get default = none

/-- What a reader takes: a value that its conversion takes, or a struct of members. -/
inductive Shape (K : Type) where
  | leaf (takes : Json K → Bool)
  | struct (members : List (String × Shape K))

namespace Shape

/-- What a conversion of the library takes. -/
def of {T : Type} (get : Json K → Option T) : Shape K := .leaf fun j => (get j).isSome

mutual

def accepts (nulls : Bool) : Shape K → Json K → Bool
  | .leaf takes, j => takes j
  | .struct members, j => acceptsMembers nulls members j

/-- `null` lacks all members where it is taken, and nothing but it and an object may be asked
for them. -/
def acceptsMembers (nulls : Bool) : List (String × Shape K) → Json K → Bool
  | [], _ => true
  | (key, shape) :: rest, j =>
    (match j with
      | .null => nulls
      | .object fields =>
        match fields.lookup key with
        | some member => shape.accepts nulls member
        | none => true
      | _ => false) && acceptsMembers nulls rest j

end

end Shape

namespace Json

mutual

/-- The second document, completed: what it lacks of the members of the first one is taken from
there, and what the first one does not have is left out. -/
def complete (nulls : Bool) : Json K → Json K → Json K
  | .object known, .null => if nulls then .object known else .null
  | .object known, .object fields => .object (completeMembers nulls known fields)
  | _, j => j

def completeMembers (nulls : Bool) :
    List (String × Json K) → List (String × Json K) → List (String × Json K)
  | [], _ => []
  | (key, default) :: rest, fields =>
    (key, match fields.lookup key with
      | some member => default.complete nulls member
      | none => default) :: completeMembers nulls rest fields

end

theorem lookup_completeMembers (nulls : Bool) (known fields : List (String × Json K))
    (key : String) :
    (completeMembers nulls known fields).lookup key = (known.lookup key).map fun default =>
      match fields.lookup key with
      | some member => default.complete nulls member
      | none => default := by
  induction known with
  | nil => rfl
  | cons entry rest ih =>
    rw [completeMembers, List.lookup_cons, List.lookup_cons, ih]
    rcases eq_or_ne key entry.1 with rfl | other
    · simp only [beq_self_eq_true, Option.map_some]
    · simp only [beq_false_of_ne other]

theorem completeMembers_congr {nulls : Bool} {known fields fields' : List (String × Json K)}
    (same : ∀ key default, (key, default) ∈ known →
      (match fields.lookup key with
        | some member => default.complete nulls member
        | none => default) =
      match fields'.lookup key with
        | some member => default.complete nulls member
        | none => default) :
    completeMembers nulls known fields = completeMembers nulls known fields' := by
  induction known with
  | nil => rfl
  | cons entry rest ih =>
    rw [completeMembers, completeMembers, same entry.1 entry.2 List.mem_cons_self]
    rw [ih fun key default listed => same key default (List.mem_cons_of_mem _ listed)]

theorem complete_ordered_congr {nulls : Bool} {known fields fields' : List (String × Json K)}
    (same : ∀ key default, (key, default) ∈ known →
      (match fields.lookup key with
        | some member => default.ordered.complete nulls member
        | none => default.ordered) =
      match fields'.lookup key with
        | some member => default.ordered.complete nulls member
        | none => default.ordered) :
    (object known).ordered.complete nulls (object fields) =
      (object known).ordered.complete nulls (object fields') := by
  rw [ordered, complete, complete]
  congr 1
  refine completeMembers_congr fun key default listed => ?_
  rw [(List.mergeSort_perm _ _).mem_iff, orderedFields_eq_map, List.mem_map] at listed
  obtain ⟨field, listed, rfl, rfl⟩ := listed
  exact same field.1 field.2 listed

theorem complete_leaf (nulls : Bool) {document : Json K} (leaf : ∀ known, document ≠ .object known)
    (j : Json K) : document.complete nulls j = j := by
  cases document with
  | object known => exact absurd rfl (leaf known)
  | _ => cases j <;> rfl

end Json

/-! ### Readers -/

/-- `get` reads the documents of this shape, the completed ones like the others, and the document
of the default as the default. -/
structure Reads {T : Type} (r : Readers K) (get : Json K → Option T) (default : T)
    (shape : Shape K) (document : Json K) : Prop where
  accepts : ∀ j, (get j).isSome = shape.accepts r.takesNull j
  complete : ∀ j, get (document.complete r.takesNull j) = get j
  default : get document = some default

/-- `get` reads the members in turn from any document, the completed ones like the others. -/
structure ReadsMembers {S : Type} (r : Readers K) (known : List (String × Json K))
    (get : Json K → Option S) (members : List (String × Shape K)) : Prop where
  accepts : ∀ j, (get j).isSome = Shape.acceptsMembers r.takesNull members j
  complete : (known.map Prod.fst).Nodup → ∀ j,
    get ((Json.object known).ordered.complete r.takesNull j) = get j

section Member

variable {r : Readers K} {S T : Type} {known : List (String × Json K)} {key : String}
  {get : Json K → Option T} {default : T} {shape : Shape K} {document : Json K}

theorem readsMembers_pure (r : Readers K) (known : List (String × Json K)) (s : S) :
    ReadsMembers r known (fun _ => some s) [] := ⟨fun _ => rfl, fun _ _ => rfl⟩

theorem reads_leaf (written : get document = some default)
    (leaf : ∀ known, document ≠ .object known) :
    Reads r get default (.of get) document where
  accepts _ := rfl
  complete j := congrArg get (Json.complete_leaf _ leaf j)
  default := written

theorem ReadsMembers.reads {members : List (String × Shape K)}
    (h : ReadsMembers r known get members) (nodup : (known.map Prod.fst).Nodup)
    (written : get (Json.object known).ordered = some default) :
    Reads r get default (.struct members) (Json.object known).ordered where
  accepts j := by
    rw [h.accepts, Shape.accepts]
  complete := h.complete nodup
  default := written

variable (documented : r.Documented)

include documented

theorem Reads.value_complete (reads : Reads r get default shape document.ordered)
    (nodup : (known.map Prod.fst).Nodup) (listed : known.lookup key = some document)
    (j : Json K) :
    r.value ((Json.object known).ordered.complete r.takesNull j) key get default =
      r.value j key get default := by
  cases j with
  | null =>
    rw [Json.ordered, Json.complete]
    cases nulls : r.takesNull with
    | false => rfl
    | true =>
      rw [if_pos rfl, documented.value_object, documented.value_null, nulls, if_pos rfl,
        Json.lookup_ordered nodup, listed]
      exact reads.default
  | object fields =>
    rw [Json.ordered, Json.complete, documented.value_object, documented.value_object,
      Json.lookup_completeMembers, Json.lookup_ordered nodup, listed]
    cases fields.lookup key with
    | none => exact reads.default
    | some member => exact reads.complete member
  | _ => rfl

theorem Reads.member (reads : Reads r get default shape document.ordered)
    (listed : known.lookup key = some document) {rest : T → Json K → Option S}
    {members : List (String × Shape K)}
    (later : ∀ a, ReadsMembers r known (rest a) members) :
    ReadsMembers r known (fun j => (r.value j key get default).bind fun a => rest a j)
      ((key, shape) :: members) where
  accepts j := by
    cases j with
    | null =>
      rw [Shape.acceptsMembers, documented.value_null]
      have rest_read := (later default).accepts .null
      cases nulls : r.takesNull with
      | false => rfl
      | true =>
        rw [if_pos rfl, Bool.true_and, ← nulls]
        exact rest_read
    | object fields =>
      rw [Shape.acceptsMembers, documented.value_object]
      cases fields.lookup key with
      | none =>
        rw [Bool.true_and]
        exact (later default).accepts (.object fields)
      | some member =>
        change ((get member).bind _).isSome =
          (shape.accepts r.takesNull member && Shape.acceptsMembers r.takesNull members _)
        rw [← reads.accepts]
        cases get member with
        | none => rfl
        | some a =>
          rw [Option.isSome_some, Bool.true_and]
          exact (later a).accepts (.object fields)
    | _ =>
      rw [documented.value_other key get default (fun h => by cases h) fun _ h => by cases h]
      rfl
  complete nodup j := by
    rw [reads.value_complete documented nodup listed]
    congr 1
    funext a
    exact (later a).complete nodup j

end Member

/-! ### Members of the written kinds -/

section Members

variable {r : Readers K} (documented : r.Documented) {S : Type} {known : List (String × Json K)}
  {key : String} {members : List (String × Shape K)}

include documented

theorem member_bool {b : Bool} (listed : known.lookup key = some (.boolean b))
    {rest : Bool → Json K → Option S} (later : ∀ a, ReadsMembers r known (rest a) members) :
    ReadsMembers r known (fun j => (r.value j key r.getBool b).bind fun a => rest a j)
      ((key, .of r.getBool) :: members) :=
  Reads.member documented
    (reads_leaf (documented.getBool_boolean b) fun _ h => by cases h) listed later

theorem member_string {text : ByteArray} (listed : known.lookup key = some (.string text))
    {rest : ByteArray → Json K → Option S} (later : ∀ a, ReadsMembers r known (rest a) members) :
    ReadsMembers r known (fun j => (r.value j key r.getString text).bind fun a => rest a j)
      ((key, .of r.getString) :: members) :=
  Reads.member documented
    (reads_leaf (documented.getString_string text) fun _ h => by cases h) listed later

theorem member_float {x : K} (listed : known.lookup key = some (.number x))
    {rest : K → Json K → Option S} (later : ∀ a, ReadsMembers r known (rest a) members) :
    ReadsMembers r known (fun j => (r.value j key r.getFloat x).bind fun a => rest a j)
      ((key, .of r.getFloat) :: members) :=
  Reads.member documented
    (reads_leaf (documented.getFloat_number x) fun _ h => by cases h) listed later

theorem member_int {i : ℤ} (fits : IsInt i) (listed : known.lookup key = some (.integer i))
    {rest : ℤ → Json K → Option S} (later : ∀ a, ReadsMembers r known (rest a) members) :
    ReadsMembers r known (fun j => (r.value j key r.getInt i).bind fun a => rest a j)
      ((key, .of r.getInt) :: members) :=
  Reads.member documented
    (reads_leaf (documented.getInt_integer i fits) fun _ h => by cases h) listed later

theorem member_five {f : Fin 5 → K}
    (listed : known.lookup key = some (.array (List.ofFn fun i => .number (f i))))
    {rest : (Fin 5 → K) → Json K → Option S}
    (later : ∀ a, ReadsMembers r known (rest a) members) :
    ReadsMembers r known (fun j => (r.value j key r.getFive f).bind fun a => rest a j)
      ((key, .of r.getFive) :: members) :=
  Reads.member documented
    (reads_leaf (documented.getFive_numbers f) fun _ h => by cases h) listed later

theorem member_enumerator {E : Type} {get : Json K → Option E} {e : E} {name : String}
    (written : get (.enumerator name) = some e)
    (listed : known.lookup key = some (.enumerator name)) {rest : E → Json K → Option S}
    (later : ∀ a, ReadsMembers r known (rest a) members) :
    ReadsMembers r known (fun j => (r.value j key get e).bind fun a => rest a j)
      ((key, .of get) :: members) :=
  Reads.member documented (reads_leaf written fun _ h => by cases h) listed later

end Members

/-! ### The structs -/

variable (r : Readers K)

def AudioConfig.shape : Shape K :=
  .struct
    [("analysis_enabled", .of r.getBool), ("capture_source_code", .of r.getString),
      ("simd_enabled", .of r.getBool), ("pan_smoothing", .of r.getFloat),
      ("pan_offset", .of r.getFloat)]

def BeatConfig.shape : Shape K :=
  .struct
    [("mode", .of (BeatMode.fromJson r)), ("profile", .of (BeatProfile.fromJson r)),
      ("pulse_strength", .of r.getFloat)]

def FrequencyConfig.shape : Shape K :=
  .struct
    [("band_count", .of r.getInt), ("fft_size", .of r.getInt),
      ("band_scale", .of (BandScale.fromJson r)), ("log_strength", .of r.getFloat),
      ("band_norm", .of r.getFloat), ("min_freq", .of r.getFloat), ("max_freq", .of r.getFloat),
      ("equalizer_bands", .of r.getFive), ("equalizer_width", .of r.getFloat),
      ("amplifier_volume", .of r.getFloat), ("amplifier_bands", .of r.getFloat),
      ("amplifier_direction", .of r.getFloat), ("spatial_spread", .of r.getFloat),
      ("spatial_smoothing", .of r.getFloat)]

def AgcConfig.shape : Shape K :=
  .struct
    [("window_seconds", .of r.getFloat), ("clamp_max", .of r.getFloat),
      ("att_attack_ms", .of r.getFloat), ("att_release_ms", .of r.getFloat)]

def ChronotensityConfig.shape : Shape K :=
  .struct
    [("gain_volume", .of r.getFloat), ("gain_bass", .of r.getFloat),
      ("gain_treble", .of r.getFloat)]

def LoudnessConfig.shape : Shape K := .struct [("window_ms", .of r.getFloat)]

def DebugConfig.shape : Shape K :=
  .struct
    [("debug_logging", .of r.getBool), ("overlay_enabled", .of r.getBool)]

def UiConfig.shape : Shape K :=
  .struct
    [("spectrum_orientation", .of (SpectrumOrientation.fromJson r))]

def OscConfig.shape : Shape K :=
  .struct
    [("enabled", .of r.getBool), ("host", .of r.getString), ("port", .of r.getInt),
      ("rate_hz", .of r.getInt)]

def OpenRgbConfig.shape : Shape K :=
  .struct
    [("enabled", .of r.getBool), ("host", .of r.getString), ("port", .of r.getInt),
      ("rate_hz", .of r.getInt), ("brightness", .of r.getFloat),
      ("pattern_single", .of (SinglePattern.fromJson r)),
      ("pattern_linear", .of (LinearPattern.fromJson r)),
      ("pattern_matrix", .of (MatrixPattern.fromJson r))]

def NetworkConfig.shape : Shape K :=
  .struct
    [("osc", OscConfig.shape r), ("openrgb", OpenRgbConfig.shape r)]

def Settings.shape : Shape K :=
  .struct
    [("schema_version", .of r.getInt), ("audio", AudioConfig.shape r),
      ("beat", BeatConfig.shape r), ("frequency", FrequencyConfig.shape r),
      ("agc", AgcConfig.shape r), ("chronotensity", ChronotensityConfig.shape r),
      ("loudness", LoudnessConfig.shape r), ("debug", DebugConfig.shape r),
      ("network", NetworkConfig.shape r), ("ui", UiConfig.shape r)]

section Structs

variable {r : Readers K} (documented : r.Documented)

include documented

theorem DebugConfig.reads :
    Reads r (fromJson r) DebugConfig.defaults (shape r) DebugConfig.defaults.toJson.ordered := by
  refine ReadsMembers.reads ?_ (by simp) (DebugConfig.fromJson_toJson documented.toReadWritten _)
  refine member_bool documented rfl fun _ => ?_
  refine member_bool documented rfl fun _ => ?_
  exact readsMembers_pure _ _ _

theorem UiConfig.reads :
    Reads r (fromJson r) UiConfig.defaults (shape r) UiConfig.defaults.toJson.ordered := by
  refine ReadsMembers.reads ?_ (by simp) (UiConfig.fromJson_toJson documented.toReadWritten _)
  refine member_enumerator documented
    (SpectrumOrientation.fromJson_name documented.toReadWritten _) rfl fun _ => ?_
  exact readsMembers_pure _ _ _

variable [Field K]

theorem AudioConfig.reads :
    Reads r (fromJson r) (Settings.defaults K).utf8.audio (shape r)
      (Settings.defaults K).utf8.audio.toJson.ordered := by
  refine ReadsMembers.reads ?_ (by simp) (AudioConfig.fromJson_toJson documented.toReadWritten _)
  refine member_bool documented rfl fun _ => ?_
  refine member_string documented rfl fun _ => ?_
  refine member_bool documented rfl fun _ => ?_
  refine member_float documented rfl fun _ => ?_
  refine member_float documented rfl fun _ => ?_
  exact readsMembers_pure _ _ _

theorem BeatConfig.reads :
    Reads r (fromJson r) (BeatConfig.defaults K) (shape r)
      (BeatConfig.defaults K).toJson.ordered := by
  refine ReadsMembers.reads ?_ (by simp) (BeatConfig.fromJson_toJson documented.toReadWritten _)
  refine member_enumerator documented
    (BeatMode.fromJson_name documented.toReadWritten _) rfl fun _ => ?_
  refine member_enumerator documented
    (BeatProfile.fromJson_name documented.toReadWritten _) rfl fun _ => ?_
  refine member_float documented rfl fun _ => ?_
  exact readsMembers_pure _ _ _

theorem AgcConfig.reads :
    Reads r (fromJson r) (AgcConfig.defaults K) (shape r)
      (AgcConfig.defaults K).toJson.ordered := by
  refine ReadsMembers.reads ?_ (by simp) (AgcConfig.fromJson_toJson documented.toReadWritten _)
  refine member_float documented rfl fun _ => ?_
  refine member_float documented rfl fun _ => ?_
  refine member_float documented rfl fun _ => ?_
  refine member_float documented rfl fun _ => ?_
  exact readsMembers_pure _ _ _

theorem ChronotensityConfig.reads :
    Reads r (fromJson r) (ChronotensityConfig.defaults K) (shape r)
      (ChronotensityConfig.defaults K).toJson.ordered := by
  refine ReadsMembers.reads ?_ (by simp)
    (ChronotensityConfig.fromJson_toJson documented.toReadWritten _)
  refine member_float documented rfl fun _ => ?_
  refine member_float documented rfl fun _ => ?_
  refine member_float documented rfl fun _ => ?_
  exact readsMembers_pure _ _ _

theorem LoudnessConfig.reads :
    Reads r (fromJson r) (LoudnessConfig.defaults K) (shape r)
      (LoudnessConfig.defaults K).toJson.ordered := by
  refine ReadsMembers.reads ?_ (by simp)
    (LoudnessConfig.fromJson_toJson documented.toReadWritten _)
  refine member_float documented rfl fun _ => ?_
  exact readsMembers_pure _ _ _

omit documented in
theorem Settings.intsFit_defaults : (Settings.defaults K).utf8.IntsFit := by
  constructor <;> exact of_decide_eq_true rfl

theorem FrequencyConfig.reads :
    Reads r (fromJson r) (FrequencyConfig.defaults K) (shape r)
      (FrequencyConfig.defaults K).toJson.ordered := by
  refine ReadsMembers.reads ?_ (by simp)
    (FrequencyConfig.fromJson_toJson documented.toReadWritten Settings.intsFit_defaults.bandCount
      Settings.intsFit_defaults.fftSize)
  refine member_int documented Settings.intsFit_defaults.bandCount rfl fun _ => ?_
  refine member_int documented Settings.intsFit_defaults.fftSize rfl fun _ => ?_
  refine member_enumerator documented
    (BandScale.fromJson_name documented.toReadWritten _) rfl fun _ => ?_
  refine member_float documented rfl fun _ => ?_
  refine member_float documented rfl fun _ => ?_
  refine member_float documented rfl fun _ => ?_
  refine member_float documented rfl fun _ => ?_
  refine member_five documented rfl fun _ => ?_
  refine member_float documented rfl fun _ => ?_
  refine member_float documented rfl fun _ => ?_
  refine member_float documented rfl fun _ => ?_
  refine member_float documented rfl fun _ => ?_
  refine member_float documented rfl fun _ => ?_
  refine member_float documented rfl fun _ => ?_
  exact readsMembers_pure _ _ _

theorem OscConfig.reads :
    Reads r (fromJson r) (Settings.defaults K).utf8.network.osc (shape r)
      (Settings.defaults K).utf8.network.osc.toJson.ordered := by
  refine ReadsMembers.reads ?_ (by simp)
    (OscConfig.fromJson_toJson documented.toReadWritten Settings.intsFit_defaults.oscPort
      Settings.intsFit_defaults.oscRate)
  refine member_bool documented rfl fun _ => ?_
  refine member_string documented rfl fun _ => ?_
  refine member_int documented Settings.intsFit_defaults.oscPort rfl fun _ => ?_
  refine member_int documented Settings.intsFit_defaults.oscRate rfl fun _ => ?_
  exact readsMembers_pure _ _ _

theorem OpenRgbConfig.reads :
    Reads r (fromJson r) (Settings.defaults K).utf8.network.openrgb (shape r)
      (Settings.defaults K).utf8.network.openrgb.toJson.ordered := by
  refine ReadsMembers.reads ?_ (by simp)
    (OpenRgbConfig.fromJson_toJson documented.toReadWritten Settings.intsFit_defaults.openrgbPort
      Settings.intsFit_defaults.openrgbRate)
  refine member_bool documented rfl fun _ => ?_
  refine member_string documented rfl fun _ => ?_
  refine member_int documented Settings.intsFit_defaults.openrgbPort rfl fun _ => ?_
  refine member_int documented Settings.intsFit_defaults.openrgbRate rfl fun _ => ?_
  refine member_float documented rfl fun _ => ?_
  refine member_enumerator documented
    (SinglePattern.fromJson_name documented.toReadWritten _) rfl fun _ => ?_
  refine member_enumerator documented
    (LinearPattern.fromJson_name documented.toReadWritten _) rfl fun _ => ?_
  refine member_enumerator documented
    (MatrixPattern.fromJson_name documented.toReadWritten _) rfl fun _ => ?_
  exact readsMembers_pure _ _ _

theorem NetworkConfig.reads :
    Reads r (fromJson r) (Settings.defaults K).utf8.network (shape r)
      (Settings.defaults K).utf8.network.toJson.ordered := by
  refine ReadsMembers.reads ?_ (by simp)
    (NetworkConfig.fromJson_toJson documented.toReadWritten Settings.intsFit_defaults)
  refine Reads.member documented (OscConfig.reads documented) rfl fun _ => ?_
  refine Reads.member documented (OpenRgbConfig.reads documented) rfl fun _ => ?_
  exact readsMembers_pure _ _ _

theorem Settings.reads :
    Reads r (fromJson r) (Settings.defaults K).utf8 (shape r)
      (Settings.defaults K).utf8.toJson.ordered := by
  refine ReadsMembers.reads ?_ (by simp)
    (Settings.fromJson_toJson documented.toReadWritten Settings.intsFit_defaults)
  refine member_int documented Settings.intsFit_defaults.schemaVersion rfl fun _ => ?_
  refine Reads.member documented (AudioConfig.reads documented) rfl fun _ => ?_
  refine Reads.member documented (BeatConfig.reads documented) rfl fun _ => ?_
  refine Reads.member documented (FrequencyConfig.reads documented) rfl fun _ => ?_
  refine Reads.member documented (AgcConfig.reads documented) rfl fun _ => ?_
  refine Reads.member documented (ChronotensityConfig.reads documented) rfl fun _ => ?_
  refine Reads.member documented (LoudnessConfig.reads documented) rfl fun _ => ?_
  refine Reads.member documented (DebugConfig.reads documented) rfl fun _ => ?_
  refine Reads.member documented (NetworkConfig.reads documented) rfl fun _ => ?_
  refine Reads.member documented (UiConfig.reads documented) rfl fun _ => ?_
  exact readsMembers_pure _ _ _

end Structs

/-! ### Stores and their files -/

section Files

variable [Field K] [LinearOrder K] [IsStrictOrderedRing K]

/-- The document completed from that of the defaults. -/
def Settings.completed (r : Readers K) (j : Json K) : Json K :=
  (Settings.defaults K).utf8.toJson.ordered.complete r.takesNull j

/-- Two files that parse to the same document as far as it is known, or both to none. -/
def SameFile (r : Readers K) (parse : ByteArray → Option (Json K)) (file file' : File) : Prop :=
  (file.bind parse).map (Settings.completed r) = (file'.bind parse).map (Settings.completed r)

/-- The same call, up to the files that a load finds. -/
inductive SameCall (r : Readers K) (parse : ByteArray → Option (Json K)) :
    Store.Call K → Store.Call K → Prop
  | load {file file' : File} :
    SameFile r parse file file' → SameCall r parse (.load file) (.load file')
  | same (call : Store.Call K) : SameCall r parse call call

variable {r : Readers K} (documented : r.Documented) {parse : ByteArray → Option (Json K)}

include documented

theorem loadFile_completed (st : Store K ByteArray) (file : File) :
    st.loadFile r parse file =
      st.load (((file.bind parse).map (Settings.completed r)).bind (Settings.fromJson r)) := by
  rw [Store.loadFile]
  congr 1
  cases file with
  | none => rfl
  | some text =>
    rw [Option.bind_some, Option.bind_some]
    cases parse text with
    | none => rfl
    | some j => exact ((Settings.reads documented).complete j).symm

theorem after_same {calls calls' : List (Store.Call K)}
    (same : List.Forall₂ (SameCall r parse) calls calls') (st : Store K ByteArray) :
    calls.foldl (Store.call r parse) st = calls'.foldl (Store.call r parse) st := by
  induction same generalizing st with
  | nil => rfl
  | cons first _ ih =>
    rw [List.foldl_cons, List.foldl_cons, ih]
    congr 1
    cases first with
    | load same =>
      rw [Store.call, Store.call, loadFile_completed documented, loadFile_completed documented,
        same]
    | same call => rfl

omit [LinearOrder K] [IsStrictOrderedRing K] documented in
theorem schemaVersion_read {j : Json K} {s : Settings K ByteArray}
    (read : Settings.fromJson r j = some s) :
    r.value j "schema_version" r.getInt kCurrentSchemaVersion = some s.schemaVersion := by
  unfold Settings.fromJson at read
  simp only [Option.bind_eq_bind, Option.bind_eq_some_iff] at read
  obtain ⟨version, first, rest⟩ := read
  obtain ⟨_, -, _, -, _, -, _, -, _, -, _, -, _, -, _, -, _, -, built⟩ := rest
  rw [← Option.some.inj built]
  exact first

/-- After the same calls with other files that agree in what is known of them a store is the
same. It then loads a file exactly when the file has no known member that its conversion does not
take and no other schema version, holds what the completed document says, and is left alone
otherwise. -/
theorem files_of_other_versions {calls calls' : List (Store.Call K)}
    (same : List.Forall₂ (SameCall r parse) calls calls') :
    Store.after r parse calls' = Store.after r parse calls ∧ ∀ text j, parse text = some j →
      let st := Store.after r parse calls
      let loaded := st.loadFile r parse (some text)
      (loaded.1 = true ↔ (Settings.shape r).accepts r.takesNull j = true ∧
        r.value j "schema_version" r.getInt kCurrentSchemaVersion =
          some kCurrentSchemaVersion) ∧
      (loaded.1 = true → ∃ s, Settings.fromJson r (Settings.completed r j) = some s ∧
        loaded.2 = st.publish s) ∧
      (loaded.1 = false → loaded.2 = st) := by
  refine ⟨(after_same documented same Store.constructed).symm, fun text j parsed => ?_⟩
  intro st loaded
  have file : loaded = st.load (Settings.fromJson r j) := by
    change st.load _ = _
    rw [Option.bind_some, parsed, Option.bind_some]
  have shape := (Settings.reads documented).accepts j
  have whole : Settings.fromJson r (Settings.completed r j) = Settings.fromJson r j :=
    (Settings.reads documented).complete j
  rw [file, whole, ← shape]
  cases read : Settings.fromJson r j with
  | none =>
    refine ⟨iff_of_false Bool.false_ne_true fun h => Bool.false_ne_true h.1, fun h => ?_,
      fun _ => rfl⟩
    exact absurd h Bool.false_ne_true
  | some s =>
    rw [schemaVersion_read read, Option.some_inj]
    by_cases current : s.schemaVersion = kCurrentSchemaVersion
    · rw [load_current st current]
      refine ⟨iff_of_true rfl ⟨rfl, current⟩, fun _ => ⟨s, rfl, rfl⟩, fun h => ?_⟩
      exact absurd h.symm Bool.false_ne_true
    · have refused : st.load (some s) = (false, st) := if_pos current
      rw [refused]
      refine ⟨iff_of_false Bool.false_ne_true fun h => current h.2, fun h => ?_, fun _ => rfl⟩
      exact absurd h Bool.false_ne_true

end Files

/-! ### A file of a later version -/

theorem plainReaders_documented : plainReaders.Documented where
  toReadWritten := plainReaders_readWritten
  value_null _ _ _ := rfl
  value_other {_ j} _ _ _ filled plain := by
    cases j with
    | null => exact absurd rfl filled
    | object fields => exact absurd rfl (plain fields)
    | _ => rfl

/-- Members that are not known here, at the top and in a struct. -/
def newerFile : Json ℚ :=
  .object
    [("audio", .object [("new_knob", .boolean true), ("pan_offset", .number 0.5)]),
      ("beat", .null), ("plugins", .array []), ("schema_version", .integer 1)]

/-- The only known member that is not at its default. -/
def olderFile : Json ℚ := .object [("audio", .object [("pan_offset", .number 0.5)])]

/-- A known member that is no number. -/
def brokenFile : Json ℚ := .object [("audio", .object [("pan_offset", .string "left".toUTF8)])]

/-- A parser that knows the three files by their names. -/
def parseFiles (text : ByteArray) : Option (Json ℚ) :=
  if text = "newer".toUTF8 then some newerFile
  else if text = "older".toUTF8 then some olderFile
  else if text = "broken".toUTF8 then some brokenFile
  else none

theorem parseFiles_newer : parseFiles "newer".toUTF8 = some newerFile := if_pos rfl

theorem parseFiles_older : parseFiles "older".toUTF8 = some olderFile :=
  (if_neg (by decide)).trans (if_pos rfl)

theorem parseFiles_broken : parseFiles "broken".toUTF8 = some brokenFile :=
  (if_neg (by decide)).trans ((if_neg (by decide)).trans (if_pos rfl))

/-- After the file of the later version a store holds what it does after the one of this version,
loads the later one again, and refuses the broken one. -/
theorem newer_file_loads :
    let store := Store.after plainReaders parseFiles [.load (some "newer".toUTF8)]
    Store.after plainReaders parseFiles [.load (some "older".toUTF8)] = store ∧
      store.snapshot.audio.panOffset = 0.5 ∧
      (store.loadFile plainReaders parseFiles (some "newer".toUTF8)).1 = true ∧
      store.loadFile plainReaders parseFiles (some "broken".toUTF8) = (false, store) := by
  intro store
  have known : SameFile plainReaders parseFiles (some "newer".toUTF8) (some "older".toUTF8) := by
    rw [SameFile, Option.bind_some, Option.bind_some, parseFiles_newer, parseFiles_older]
    refine congrArg some (Json.complete_ordered_congr fun key default listed => ?_)
    simp only [List.mem_cons, List.not_mem_nil, or_false, Prod.mk.injEq] at listed
    rcases listed with h | h | h | h | h | h | h | h | h | h <;> obtain ⟨rfl, rfl⟩ := h
    case inr.inl =>
      refine Json.complete_ordered_congr fun key default listed => ?_
      simp only [List.mem_cons, List.not_mem_nil, or_false, Prod.mk.injEq] at listed
      rcases listed with h | h | h | h | h <;> obtain ⟨rfl, rfl⟩ := h <;> rfl
    all_goals rfl
  obtain ⟨same, loads⟩ :=
    files_of_other_versions plainReaders_documented (.cons (.load known) .nil)
  obtain ⟨accepted, -⟩ := loads _ _ parseFiles_newer
  obtain ⟨refused, -, left⟩ := loads _ _ parseFiles_broken
  have broken : (store.loadFile plainReaders parseFiles (some "broken".toUTF8)).1 = false :=
    Bool.eq_false_iff.mpr fun loaded => absurd (refused.mp loaded).1 (by decide)
  refine ⟨same, by decide +kernel, accepted.mpr ⟨rfl, rfl⟩, Prod.ext broken (left broken)⟩

end Listeningway.Config
