import VmNode.Instance.Json
import VmNode.Proofs.Address.Ipv4
import VmNode.Proofs.Json.Decode
import VmNode.Proofs.Json.Reader

/-!
# Round trips

What is written of a record, a specification, a network, a port or an exit reason is read back
as what it was (`roundTrips_instance`). The reader gives the document of the text
(`Doc.readsAs_compact`), so all that is left is to decode that document, field by field. An
absent field is left out of a record and written as `null` in an exit reason.
-/

namespace VmNode

open Doc (Decoder Layout)
open Doc.Layout (gives_pure gives_of_some gives_of_none)

/-- The text of every value, in either layout, is decoded as the value, and distinct values have
    distinct texts. -/
structure RoundTrips {α : Type} (toJson : α → Json) (decode : Decoder α) : Prop where
  /-- The compact text is decoded. -/
  compact : ∀ a, Doc.decodeText decode (toJson a).compact = .ok a
  /-- The indented text is decoded. -/
  pretty : ∀ a, Doc.decodeText decode (toJson a).pretty = .ok a
  /-- Distinct values have distinct compact texts. -/
  injective_compact : Function.Injective fun a => (toJson a).compact
  /-- Distinct values have distinct indented texts. -/
  injective_pretty : Function.Injective fun a => (toJson a).pretty

/-- A type round-trips if the JSON of each value is readable and is decoded as the value: both texts
    are read as the document of that JSON. -/
theorem roundTrips_of_decode {α : Type} {toJson : α → Json} {decode : Decoder α}
    (hread : ∀ a, (toJson a).isReadable = true)
    (hdecode : ∀ a, decode (Doc.ofJson (toJson a)) = .ok a) : RoundTrips toJson decode := by
  have hcompact a : Doc.decodeText decode (toJson a).compact = .ok a :=
    ((Doc.readsAs_compact (hread a)).decodeText decode).trans (hdecode a)
  have hpretty a : Doc.decodeText decode (toJson a).pretty = .ok a :=
    ((Doc.readsAs_pretty (hread a)).decodeText decode).trans (hdecode a)
  refine ⟨hcompact, hpretty, fun a b h => ?_, fun a b h => ?_⟩
  · have hsame := congrArg (Doc.decodeText decode) h
    simp only [hcompact] at hsame
    exact Except.ok.inj hsame
  · have hsame := congrArg (Doc.decodeText decode) h
    simp only [hpretty] at hsame
    exact Except.ok.inj hsame

/-! ### Ports -/

namespace PortMapping

theorem isReadable_toJson (m : PortMapping) : m.toJson.isReadable = true := by
  simp [toJson, Json.isReadable, Json.membersReadable]

theorem decode_toJson (m : PortMapping) : decode (Doc.ofJson m.toJson) = .ok m :=
  Doc.record_ofJson (by simp) (List.Subset.refl _)
    (((gives_pure _).seq (gives_of_some rfl (Doc.uint16_ofJson _))).seq
      (gives_of_some rfl (Doc.uint16_ofJson _)))

end PortMapping

/-! ### Networks -/

namespace NetworkInfo

theorem isReadable_toJson (n : NetworkInfo) : n.toJson.isReadable = true := by
  simp [toJson, Json.isReadable, Json.membersReadable,
    Json.areReadable_map PortMapping.isReadable_toJson]

theorem decode_toJson (n : NetworkInfo) : decode (Doc.ofJson n.toJson) = .ok n :=
  Doc.record_ofJson (by simp) (List.Subset.refl _)
    ((((((((gives_pure _).seq (gives_of_some rfl (Doc.uint32_ofJson _))).seq
      (gives_of_some rfl (Doc.parsed_ofJson (Ipv4.ofText?_text _)))).seq
      (gives_of_some rfl (Doc.parsed_ofJson (Ipv4.ofText?_text _)))).seq
      (gives_of_some rfl (Doc.string_ofJson _))).seq
      (gives_of_some rfl (Doc.string_ofJson _))).seq
      (gives_of_some rfl (Doc.string_ofJson _))).seq
      (gives_of_some rfl (Doc.decode_itemsOf _ _ PortMapping.decode_toJson _)))

end NetworkInfo

/-! ### Specifications -/

namespace InstanceSpec

theorem isReadable_toJson (s : InstanceSpec) : s.toJson.isReadable = true := by
  simp [toJson, Json.texts, Json.isReadable, Json.membersReadable,
    Json.areReadable_map (g := .str) (fun _ => rfl),
    Json.membersReadable_map (g := fun e : String × String => (e.1, .str e.2)) (fun _ => rfl)]

/-- The variables of the environment are decoded with each key where it was. -/
theorem decodeEnv_ofJson (t : Table String String) :
    decodeEnv (Doc.ofJson (.obj (t.entries.map fun e => (e.1, .str e.2)))) = .ok t := by
  rw [decodeEnv, Doc.ofJson, Doc.members, Doc.decode_entriesOf _ _ Doc.string_ofJson]
  exact congrArg Except.ok t.ofList_entries

theorem decode_toJson (s : InstanceSpec) : decode (Doc.ofJson s.toJson) = .ok s :=
  Doc.record_ofJson (by simp) (List.Subset.refl _)
    ((((((gives_pure _).seq (gives_of_some rfl (Doc.string_ofJson _))).seq
      (gives_of_some rfl (Doc.uint32_ofJson _))).seq
      (gives_of_some rfl (Doc.uint32_ofJson _))).seq
      (gives_of_some rfl (Doc.decode_itemsOf _ _ Doc.string_ofJson _))).seq
      (gives_of_some rfl (decodeEnv_ofJson _)))

end InstanceSpec

/-! ### Records -/

namespace LogRecord

theorem isReadable_toJson (r : LogRecord) : r.toJson.isReadable = true := by
  have htime := Json.isReadable_int64 r.timestampMs
  cases hmessage : r.message <;> cases hstate : r.state <;>
    simpa [toJson, hmessage, hstate, member?, Json.isReadable, Json.membersReadable] using htime

/-- A kind of record is decoded from its name. -/
theorem decode_kind (k : LogKind) : LogKind.decode (Doc.ofJson (.str k.name)) = .ok k := by
  cases k <;> rfl

/-- A member that is left out is read as absent. -/
theorem gives_member {key : String} {find : String → Option Doc} {s : Option String}
    (hfind : find key = s.map fun s => Doc.ofJson (.str s)) :
    (Layout.optionalOr key Doc.string).Gives find s := by
  rw [Layout.optionalOr, Layout.fieldOr]
  cases s with
  | none => exact gives_of_none hfind
  | some s => exact gives_of_some hfind rfl

theorem decode_toJson (r : LogRecord) : decode (Doc.ofJson r.toJson) = .ok r := by
  obtain ⟨kind, time, message, state⟩ := r
  refine Doc.record_ofJson ?_ ?_
    (((((gives_pure _).seq (gives_of_some rfl (decode_kind _))).seq
      (gives_of_some rfl (Doc.int64_ofJson _))).seq (gives_member ?_)).seq (gives_member ?_))
  · cases message <;> cases state <;> simp [member?]
  · show _ ⊆ ["log_type", "timestamp_ms", "message", "state"]
    cases message <;> cases state <;> simp [member?]
  · cases message <;> cases state <;> rfl
  · cases message <;> cases state <;> rfl

end LogRecord

/-! ### Exit reasons -/

namespace ExitReason

theorem isReadable_toJson (r : ExitReason) : r.toJson.isReadable = true := by
  cases r with
  | clean => rfl
  | forced => rfl
  | crashed code =>
    have hcode := Json.isReadable_option Json.isReadable_int32 code
    simp [toJson, Json.isReadable, Json.membersReadable, hcode]

theorem decode_toJson (r : ExitReason) : decode (Doc.ofJson r.toJson) = .ok r := by
  cases r with
  | clean => rfl
  | forced => rfl
  | crashed code =>
    cases code with
    | none => rfl
    | some code =>
      show ExitReason.crashed <$> decodeCode (Doc.ofJson (.int code.toInt)) = _
      have hcode : decodeCode (Doc.ofJson (.int code.toInt)) =
          some <$> Doc.int32 (Doc.ofJson (.int code.toInt)) := rfl
      rw [hcode, Doc.int32_ofJson]
      rfl

end ExitReason

/-- Records, specifications, networks, ports and exit reasons survive being written and read,
    whatever their texts, lists and tables hold and whatever is absent. -/
theorem roundTrips_instance :
    RoundTrips LogRecord.toJson LogRecord.decode ∧
      RoundTrips InstanceSpec.toJson InstanceSpec.decode ∧
      RoundTrips NetworkInfo.toJson NetworkInfo.decode ∧
      RoundTrips PortMapping.toJson PortMapping.decode ∧
      RoundTrips ExitReason.toJson ExitReason.decode :=
  ⟨roundTrips_of_decode LogRecord.isReadable_toJson LogRecord.decode_toJson,
    roundTrips_of_decode InstanceSpec.isReadable_toJson InstanceSpec.decode_toJson,
    roundTrips_of_decode NetworkInfo.isReadable_toJson NetworkInfo.decode_toJson,
    roundTrips_of_decode PortMapping.isReadable_toJson PortMapping.decode_toJson,
    roundTrips_of_decode ExitReason.isReadable_toJson ExitReason.decode_toJson⟩

end VmNode
