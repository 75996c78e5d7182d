import GuardedThings.Proofs.Policy.WireForm
import GuardedThings.Proofs.Thing.WireForm
import GuardedThings.Proofs.Wire.Decoded
import GuardedThings.Proofs.Wire.Tags

/-!
# Commands read back

Decoding puts a command into a normal form: pointers and keys are spelled anew,
permissions are sorted, tags are quoted, fields that are null or missing become
what they stand for, and records given as arrays become objects. Encoding writes
the normal form, and decoding leaves it as it is.

Of the values of the command type, one kind is not written as it can be read:
metadata that are null. They would be taken for missing. But no decoder gives
them (`Headers.metadata_of_decode`), so every decoded command is read back from
what is written for it (`commands_stable`).
-/

set_option autoImplicit false

namespace GuardedThings

/-! ## Null -/

/-- A source in which nothing but null stands for null. -/
class NullShaped (σ : Type) [Source σ] : Prop where
  shape_of_null : ∀ s : σ, Source.toJson s = .ok .null → Source.shape s = .null

instance : NullShaped Json where
  shape_of_null v h := by
    cases h
    rfl

instance : NullShaped Draft where
  shape_of_null d h := by
    have hjson : d.toJson? = some .null := by
      change (match d.toJson? with
        | some v => Except.ok v
        | none => .error Mismatch.notJson) = .ok .null at h
      split at h
      · rename_i v hv
        cases h
        exact hv
      · cases h
    cases d with
    | null => rfl
    | unreadable _ | bool _ | integer _ | float _ | string _ => cases hjson
    | array items closed =>
      cases closed with
      | false => cases hjson
      | true =>
        obtain ⟨_, -, heq⟩ := Option.map_eq_some_iff.mp hjson
        cases heq
    | object members closed =>
      cases closed with
      | false => cases hjson
      | true =>
        obtain ⟨_, -, heq⟩ := Option.map_eq_some_iff.mp hjson
        cases heq

/-- A field of any JSON that may be missing is never decoded to null. -/
theorem decode_option_json_ne_null {σ : Type} [Source σ] [NullShaped σ] {s : σ}
    {value : Option Json} (h : Decoder.option (Wire.decode : Decoder σ Json) s = .ok value) :
    value ≠ some .null := by
  rintro rfl
  unfold Decoder.option at h
  split at h
  · cases h
  · rename_i hshape
    obtain ⟨v, hv, heq⟩ := (bind_eq_ok_iff _ _ _).mp h
    cases heq
    exact hshape (NullShaped.shape_of_null s hv)

/-! ## Headers -/

namespace Headers

/-- Decoded headers have no metadata that are null. -/
theorem ensures_metadata {σ : Type} [Source σ] [NullShaped σ] :
    (fields : Fields σ Headers).Ensures fun h => h.metadata ≠ some .null := by
  have hmetadata : (Fields.optional "put-metadata" (Wire.decode : Decoder σ Json)).Ensures
      fun value => value ≠ some .null :=
    Fields.ensures_defaulted nofun fun s value h => decode_option_json_ne_null h
  refine Fields.Ensures.map (Fields.Ensures.imp ((Fields.ensures_true _).and
    ((Fields.ensures_true _).and ((Fields.ensures_true _).and
      ((Fields.ensures_true _).and hmetadata)))) ?_)
  rintro ⟨_, _, _, _, _⟩ ⟨-, -, -, -, hne⟩
  exact hne

/-- Decoded headers have no metadata that are null. -/
theorem metadata_of_decode {σ : Type} [Source σ] [NullShaped σ] {s : σ} {h : Headers}
    (hdecode : Wire.decode s = .ok h) : h.metadata ≠ some .null :=
  ensures_metadata.of_decode hdecode

/-- Headers without null metadata are read back from their wire form. -/
theorem decode_encode {h : Headers} (hmetadata : h.metadata ≠ some .null) :
    Wire.decode (Wire.encode h : Json) = .ok h := by
  have hnull : ∀ v, h.metadata = some v → (Wire.encode v : Json) ≠ .null :=
    fun v hv heq => hmetadata (hv.trans (congrArg some heq))
  refine ((Fields.Reads.optional (by exact fun _ => nofun) ?_ rfl).and
    ((Fields.Reads.optional (by exact fun _ => nofun) ?_ rfl).and
      ((Fields.Reads.optional (by exact fun _ => nofun) ?_ rfl).and
        ((Fields.Reads.optional (by exact fun _ => nofun) ?_ rfl).and
          (Fields.Reads.optional_of_forall hnull ?_ (by cases h.metadata <;> rfl))
          ?_) ?_) ?_) ?_).map _ |>.decode
  all_goals simp

end Headers

/-! ## Commands -/

namespace Command

variable {kind : EntityKind} {ρ : Type} [Wire ρ]

/-- A command that is decoded from its wire form, so that a second encoding says the same. -/
def Stable (c : Command kind ρ) : Prop :=
  ∃ again : Command kind ρ, Wire.decode (Wire.encode c : Json) = .ok again ∧ again = c ∧
    (Wire.encode again : Json) = Wire.encode c

/-- A decoded command has no metadata that are null. -/
theorem metadata_of_decode {σ : Type} [Source σ] [NullShaped σ] {s : σ} {c : Command kind ρ}
    (h : Wire.decode s = .ok c) : c.headers.metadata ≠ some .null := by
  have hheaders : (Fields.defaulted "headers" .empty (Wire.decode : Decoder σ Headers)).Ensures
      fun h => h.metadata ≠ some .null :=
    Fields.ensures_defaulted nofun fun s h hdecode => Headers.metadata_of_decode hdecode
  have hfields : (fields : Fields σ (Command kind ρ)).Ensures
      fun c => c.headers.metadata ≠ some .null := by
    refine Fields.Ensures.map (Fields.Ensures.imp
      ((Fields.ensures_true _).and (hheaders.and (Fields.ensures_true _))) ?_)
    rintro ⟨_, _, _⟩ ⟨-, hne, -⟩
    exact hne
  exact hfields.of_decode h

/-- A command without null metadata is read back from its wire form. -/
theorem decode_encode [LawfulWire ρ] {c : Command kind ρ}
    (hmetadata : c.headers.metadata ≠ some .null) :
    Wire.decode (Wire.encode c : Json) = .ok c := by
  refine ((Fields.Reads.required ?_ rfl).and
    ((Fields.reads_field_of_some ?_ rfl (Headers.decode_encode hmetadata)).and
      (Fields.Reads.required ?_ rfl) ?_) ?_).map _ |>.decode
  all_goals simp

/-- A command that was decoded, from whatever source, has a stable wire form. -/
theorem stable_of_decode [LawfulWire ρ] {σ : Type} [Source σ] [NullShaped σ] {s : σ}
    {c : Command kind ρ} (h : Wire.decode s = .ok c) : c.Stable :=
  ⟨c, decode_encode (metadata_of_decode h), rfl, rfl⟩

end Command

/-- Every command that is decoded, from JSON at hand or from a text, is read back from its wire
form: commands to policies and to things, with any headers and any request. -/
theorem commands_stable :
    (∀ (v : Json) (c : PolicyCommand), Wire.decode v = .ok c → c.Stable) ∧
    (∀ (v : Json) (c : ThingCommand), Wire.decode v = .ok c → c.Stable) ∧
    (∀ (d : Draft) (c : PolicyCommand), Wire.decode d = .ok c → c.Stable) ∧
    (∀ (d : Draft) (c : ThingCommand), Wire.decode d = .ok c → c.Stable) := by
  refine ⟨?_, ?_, ?_, ?_⟩
  · intro v c h
    exact Command.stable_of_decode h
  · intro v c h
    exact Command.stable_of_decode h
  · intro d c h
    exact Command.stable_of_decode h
  · intro d c h
    exact Command.stable_of_decode h

/-- A command given as loosely as it may be: headers as an array that stops early, tags without
quotes and among blanks, a permission given twice, a path with empty segments. -/
def looseCommand : Json :=
  .object [("payload", .object [("modifyResource", .object
      [("resourceKey", .string "thing://features/lamp/"), ("label", .string "keeper"),
        ("resource", .array [.array [.string "WRITE", .string "READ", .string "WRITE"]])])]),
    ("headers", .array [.null, .string " W/dim , *,", .null, .string "bright"]),
    ("comment", .null), ("entity_id", .string "org.example:hall")]

/-- What it is decoded to. -/
def tidyCommand : PolicyCommand where
  entityId := ⟨"org.example:hall", by decide⟩
  headers :=
    { ifMatch := some ⟨[.tag ⟨true, "dim", by decide⟩, .any], by decide, by decide⟩
      etag := some ⟨false, "bright", by decide⟩ }
  request := .write (.resource ⟨"keeper", by decide⟩ (.thing (.ofSegments ["features", "lamp"]))
    ⟨.ofList [.read, .write], .empty⟩)

/-- A query by its bare name, with metadata that are null. -/
def looseQuery : Json :=
  .object [("payload", .string "retrieveThing"), ("entity_id", .string "org.example:spare"),
    ("headers", .object [("put-metadata", .null)])]

/-- What it is decoded to. -/
def tidyQuery : ThingCommand := ⟨⟨"org.example:spare", by decide⟩, .empty, .retrieve .whole⟩

/-- The loose command and the loose query are decoded to the tidy ones, which stay as they are. -/
theorem commands_stable_loose :
    (Wire.decode looseCommand = .ok tidyCommand ∧ tidyCommand.Stable) ∧
      Wire.decode looseQuery = .ok tidyQuery ∧ tidyQuery.Stable := by
  have hcommand : Wire.decode looseCommand = .ok tidyCommand := by rfl
  have hquery : Wire.decode looseQuery = .ok tidyQuery := by rfl
  exact ⟨⟨hcommand, commands_stable.1 _ _ hcommand⟩, hquery, commands_stable.2.1 _ _ hquery⟩

end GuardedThings
