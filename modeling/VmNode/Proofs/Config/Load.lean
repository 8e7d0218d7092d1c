import VmNode.Config.Json
import VmNode.Proofs.Address.Ipv4
import VmNode.Proofs.Json.Partial
import VmNode.Proofs.Json.Reader

/-!
# Loading configurations

A file may hold some of the settings only, in any order and with anything else beside them. It
is decoded section by section: each keeps the settings that are there and takes the defaults
for the others (`overDefaults`), and so does the whole. A loaded configuration is this, checked
(`NodeConfig.load_spelled`). Written as a whole, a configuration that meets the rules is loaded
as it is.
-/

namespace VmNode

open Doc (Decoder Layout)
open Doc.Layout (gives_pure gives_fieldOr gives_thinned)

/-! ### Sections -/

namespace HypervisorConfig

/-- The settings that `keep` names, over the defaults. -/
def overDefaults (c : HypervisorConfig) (keep : String → Bool) : HypervisorConfig :=
  let d : HypervisorConfig := {}
  { jailerBinary := if keep "jailer_binary" then c.jailerBinary else d.jailerBinary
    hypervisorBinary := if keep "firecracker_binary" then c.hypervisorBinary else d.hypervisorBinary
    kernelImage := if keep "kernel_image" then c.kernelImage else d.kernelImage
    rootfs := if keep "rootfs" then c.rootfs else d.rootfs
    chrootBase := if keep "chroot_base_dir" then c.chrootBase else d.chrootBase
    uidBase := if keep "uid_base" then c.uidBase else d.uidBase
    scratchDiskGb := if keep "scratch_disk_gb" then c.scratchDiskGb else d.scratchDiskGb
    extraBootArgs := if keep "extra_boot_args" then c.extraBootArgs else d.extraBootArgs
    apiSocketTimeoutMs :=
      if keep "api_socket_timeout_ms" then c.apiSocketTimeoutMs else d.apiSocketTimeoutMs
    launchTimeoutMs := if keep "launch_timeout_ms" then c.launchTimeoutMs else d.launchTimeoutMs }

theorem decode_of_thins {c : HypervisorConfig} {keep : String → Bool} {d : Doc}
    (h : Doc.Thins keep c.toJson d) : decode d = .ok (c.overDefaults keep) :=
  Doc.record_of_holds h (by simp) rfl fun _ hfind =>
    ((((((((((gives_pure _).seq
      (gives_thinned hfind (by simp) (Doc.string_ofJson c.jailerBinary))).seq
      (gives_thinned hfind (by simp) (Doc.string_ofJson c.hypervisorBinary))).seq
      (gives_thinned hfind (by simp) (Doc.string_ofJson c.kernelImage))).seq
      (gives_thinned hfind (by simp) (Doc.string_ofJson c.rootfs))).seq
      (gives_thinned hfind (by simp) (Doc.string_ofJson c.chrootBase))).seq
      (gives_thinned hfind (by simp) (Doc.uint32_ofJson c.uidBase))).seq
      (gives_thinned hfind (by simp) (Doc.uint64_ofJson c.scratchDiskGb))).seq
      (gives_thinned hfind (by simp) (Doc.nullable_ofJson c.extraBootArgs))).seq
      (gives_thinned hfind (by simp) (Doc.uint64_ofJson c.apiSocketTimeoutMs))).seq
      (gives_thinned hfind (by simp) (Doc.uint64_ofJson c.launchTimeoutMs))

end HypervisorConfig

namespace NetworkConfig

/-- The settings that `keep` names, over the defaults. -/
def overDefaults (c : NetworkConfig) (keep : String → Bool) : NetworkConfig :=
  let d : NetworkConfig := {}
  { subnetBase := if keep "subnet_base" then c.subnetBase else d.subnetBase
    prefixLen := if keep "prefix_len" then c.prefixLen else d.prefixLen
    serviceInterface := if keep "service_interface" then c.serviceInterface else d.serviceInterface
    dryRun := if keep "dry_run" then c.dryRun else d.dryRun }

theorem decode_of_thins {c : NetworkConfig} {keep : String → Bool} {d : Doc}
    (h : Doc.Thins keep c.toJson d) : decode d = .ok (c.overDefaults keep) :=
  Doc.record_of_holds h (by simp) rfl fun _ hfind =>
    ((((gives_pure _).seq
      (gives_thinned hfind (by simp) (Doc.parsed_ofJson (Ipv4.ofText?_text c.subnetBase)))).seq
      (gives_thinned hfind (by simp) (Doc.uint8_ofJson c.prefixLen))).seq
      (gives_thinned hfind (by simp) (Doc.string_ofJson c.serviceInterface))).seq
      (gives_thinned hfind (by simp) (Doc.boolean_ofJson c.dryRun))

end NetworkConfig

namespace ShutdownConfig

/-- The settings that `keep` names, over the defaults. -/
def overDefaults (c : ShutdownConfig) (keep : String → Bool) : ShutdownConfig :=
  let d : ShutdownConfig := {}
  { defaultTimeoutMs :=
      if keep "default_timeout_ms" then c.defaultTimeoutMs else d.defaultTimeoutMs }

theorem decode_of_thins {c : ShutdownConfig} {keep : String → Bool} {d : Doc}
    (h : Doc.Thins keep c.toJson d) : decode d = .ok (c.overDefaults keep) :=
  Doc.record_of_holds h (by simp) rfl fun _ hfind =>
    (gives_pure _).seq (gives_thinned hfind (by simp) (Doc.uint64_ofJson c.defaultTimeoutMs))

end ShutdownConfig

namespace ConsoleConfig

/-- The settings that `keep` names, over the defaults. -/
def overDefaults (c : ConsoleConfig) (keep : String → Bool) : ConsoleConfig :=
  let d : ConsoleConfig := {}
  { bufferLines := if keep "buffer_lines" then c.bufferLines else d.bufferLines
    bufferBytes := if keep "buffer_bytes" then c.bufferBytes else d.bufferBytes
    subscriberQueue := if keep "subscriber_queue" then c.subscriberQueue else d.subscriberQueue
    maxLineLength := if keep "max_line_length" then c.maxLineLength else d.maxLineLength }

theorem decode_of_thins {c : ConsoleConfig} {keep : String → Bool} {d : Doc}
    (h : Doc.Thins keep c.toJson d) : decode d = .ok (c.overDefaults keep) :=
  Doc.record_of_holds h (by simp) rfl fun _ hfind =>
    ((((gives_pure _).seq
      (gives_thinned hfind (by simp) (Doc.uint64_ofJson c.bufferLines))).seq
      (gives_thinned hfind (by simp) (Doc.uint64_ofJson c.bufferBytes))).seq
      (gives_thinned hfind (by simp) (Doc.uint64_ofJson c.subscriberQueue))).seq
      (gives_thinned hfind (by simp) (Doc.uint64_ofJson c.maxLineLength))

end ConsoleConfig

/-! ### The whole -/

/-- Which members of a configuration are kept: of the whole, and of each section. -/
structure Kept where
  /-- The members of the whole. -/
  member : String → Bool
  /-- The members of a section. -/
  field : String → String → Bool

/-- Everything is kept. -/
def Kept.all : Kept := ⟨fun _ => true, fun _ _ => true⟩

/-- The documents of an object with the members that are kept, each of which leaves out some of
    its own. -/
def Kept.Spells (k : Kept) : Json → Doc → Prop
  | .obj members, d =>
    Doc.Holds k.member (members.map fun m => (m.1, Doc.Thins (k.field m.1) m.2)) d
  | v, d => d = Doc.ofJson v

/-- A section is decoded from what is spelled of it, and is the default if its key is left out. -/
theorem Kept.gives_spelled {α : Type} {k : Kept} {key : String} {f : Decoder α} {a b : α} {v : Json}
    {find : String → Option Doc} {fields : List (String × Json)}
    (h : Doc.Answers k.member (fields.map fun m => (m.1, Doc.Thins (k.field m.1) m.2)) find)
    (hmem : (key, v) ∈ fields) (hf : ∀ d, Doc.Thins (k.field key) v d → f d = .ok a) :
    (Layout.fieldOr key f b).Gives find (if k.member key then a else b) :=
  gives_fieldOr (P := fun key v => Doc.Thins (k.field key) v) h hmem hf

namespace NodeConfig

open Kept (gives_spelled)

/-- The settings that are kept, over the defaults. -/
def overDefaults (c : NodeConfig) (k : Kept) : NodeConfig :=
  let d : NodeConfig := {}
  { listen := if k.member "listen_addr" then c.listen else d.listen
    hypervisor := if k.member "firecracker" then c.hypervisor.overDefaults (k.field "firecracker")
      else d.hypervisor
    network := if k.member "network" then c.network.overDefaults (k.field "network")
      else d.network
    shutdown := if k.member "shutdown" then c.shutdown.overDefaults (k.field "shutdown")
      else d.shutdown
    console := if k.member "console" then c.console.overDefaults (k.field "console")
      else d.console }

/-- Whatever part of a configuration is spelled, decoding gives that part over the defaults. -/
theorem decode_of_spells {c : NodeConfig} {k : Kept} {d : Doc}
    (hlisten : Endpoint.ofText? c.listen.text = some c.listen) (h : k.Spells c.toJson d) :
    decode d = .ok (c.overDefaults k) :=
  Doc.record_of_holds h (by simp) rfl fun _ hfind =>
    (((((gives_pure _).seq
      (gives_spelled hfind (.head _) fun _ hd => hd ▸ Doc.parsed_ofJson hlisten)).seq
      (gives_spelled hfind (.tail _ (.head _)) fun _ => HypervisorConfig.decode_of_thins)).seq
      (gives_spelled hfind (by simp) fun _ => NetworkConfig.decode_of_thins)).seq
      (gives_spelled hfind (by simp) fun _ => ShutdownConfig.decode_of_thins)).seq
      (gives_spelled hfind (by simp) fun _ => ConsoleConfig.decode_of_thins)

/-- Everything kept is the configuration itself. -/
theorem overDefaults_all (c : NodeConfig) : c.overDefaults .all = c := rfl

/-- The document of a configuration spells all of it. -/
theorem spells_all (c : NodeConfig) : Kept.all.Spells c.toJson (Doc.ofJson c.toJson) := by
  refine Doc.holds_ofJson (P := fun _ => Doc.Thins fun _ => true) (by simp) ?_
  simp only [List.forall_mem_cons]
  refine ⟨rfl, Doc.thins_ofJson (by simp), Doc.thins_ofJson (by simp), Doc.thins_ofJson (by simp),
    Doc.thins_ofJson (by simp), nofun⟩

theorem isReadable_toJson (c : NodeConfig) : c.toJson.isReadable = true := by
  have hargs := Json.isReadable_option (g := .str) (fun _ => rfl) c.hypervisor.extraBootArgs
  simp [toJson, HypervisorConfig.toJson, NetworkConfig.toJson, ShutdownConfig.toJson,
    ConsoleConfig.toJson, Json.isReadable, Json.membersReadable, hargs]

/-- What loading a file answers whose text is read as a document that is decoded. -/
theorem load_of_decode {read : String → Except OsError (List UInt8)} {path text : String} {d : Doc}
    {c : NodeConfig} (hfile : read path = .ok (Text.Utf8.encode text)) (htext : Doc.ReadsAs text d)
    (hdecode : decode d = .ok c) :
    load read path = match c.validate with
      | .error e => .error e
      | .ok () => .ok c := by
  have hbytes : (read path >>= textOfBytes) = .ok text := by
    rw [hfile]
    show textOfBytes _ = _
    rw [textOfBytes, Text.Utf8.decode?_encode]
  rw [load, hbytes]
  show ofText text = _
  cases hvalid : c.validate <;> simp only [ofText, htext.decodeText, hdecode, hvalid]

/-- All that validation can answer is an error of the configuration. -/
theorem isConfig_of_validate {c : NodeConfig} {e : Error} (h : c.validate = .error e) :
    ∃ why, e = .config why := by
  rw [validate] at h
  split at h <;> cases h
  exact ⟨_, rfl⟩

/-- A file holds what is kept of a configuration, in any order and with anything else beside it.
    Loading it gives these settings over the defaults if they meet the rules, and says which
    rule they break otherwise. So what is written of a configuration that meets the rules is
    loaded as the configuration. -/
theorem load_spelled :
    (∀ (c : NodeConfig) (k : Kept) (d : Doc) (text path : String)
      (read : String → Except OsError (List UInt8)),
      Endpoint.ofText? c.listen.text = some c.listen → k.Spells c.toJson d →
      Doc.ReadsAs text d → read path = .ok (Text.Utf8.encode text) →
      ((c.overDefaults k).validate = .ok () → load read path = .ok (c.overDefaults k)) ∧
      ∀ e, (c.overDefaults k).validate = .error e →
        load read path = .error e ∧ ∃ why, e = .config why) ∧
    ∀ (c : NodeConfig) (text path : String) (read : String → Except OsError (List UInt8)),
      Endpoint.ofText? c.listen.text = some c.listen → c.validate = .ok () →
      text = c.toJson.compact ∨ text = c.toJson.pretty →
      read path = .ok (Text.Utf8.encode text) → load read path = .ok c := by
  have hload (c : NodeConfig) (k : Kept) (d : Doc) (text path : String)
      (read : String → Except OsError (List UInt8))
      (hlisten : Endpoint.ofText? c.listen.text = some c.listen) (hd : k.Spells c.toJson d)
      (htext : Doc.ReadsAs text d) (hfile : read path = .ok (Text.Utf8.encode text)) :=
    load_of_decode hfile htext (decode_of_spells hlisten hd)
  refine ⟨fun c k d text path read hlisten hd htext hfile => ?_,
    fun c text path read hlisten hvalid htext hfile => ?_⟩
  · have hanswer := hload c k d text path read hlisten hd htext hfile
    refine ⟨fun hvalid => ?_, fun e herror => ⟨?_, isConfig_of_validate herror⟩⟩
    · rw [hanswer, hvalid]
    · rw [hanswer, herror]
  · have hreads : Doc.ReadsAs text (Doc.ofJson c.toJson) := by
      rcases htext with rfl | rfl
      · exact Doc.readsAs_compact c.isReadable_toJson
      · exact Doc.readsAs_pretty c.isReadable_toJson
    rw [hload c .all _ text path read hlisten c.spells_all hreads hfile, c.overDefaults_all, hvalid]

/-- A configuration that differs from the defaults in where it listens and in its buffers. -/
def ofLines (lines : UInt64) : NodeConfig :=
  { listen := .v4 (.ofOctets 10 0 0 1) 80, console := { bufferLines := lines } }

/-- A file that holds one setting of it, beside others that are not known. -/
def sparse (lines : UInt64) : Json :=
  .obj [("note", .texts ["by hand"]),
    ("console", .obj [("depth", .nat 3), ("buffer_lines", .nat lines.toNat)])]

/-- The setting that is kept. -/
def linesOnly : Kept := ⟨(· == "console"), fun _ => (· == "buffer_lines")⟩

/-- A single field of a single section, with a field that nobody knows beside it. -/
theorem spells_sparse (lines : UInt64) :
    linesOnly.Spells (ofLines lines).toJson (Doc.ofJson (sparse lines)) := by
  have hsection : Doc.Thins (linesOnly.field "console") (ofLines lines).console.toJson
      (Doc.ofJson (.obj [("depth", .nat 3), ("buffer_lines", .nat lines.toNat)])) :=
    .obj _ [("buffer_lines", Doc.ofJson (.nat lines.toNat))] [("depth", .int 3)] (.swap _ _ _) rfl
      (by simp [ofLines]) (by simp [Doc.isWhole])
  refine .obj _ [("console", _)] [("note", Doc.ofJson (.texts ["by hand"]))] (.swap _ _ _) rfl ?_ ?_
  · simpa using hsection
  · simp [Json.texts, Doc.ofJson, Doc.itemsOf, Doc.isWhole, Doc.Items.isWhole]

theorem load_sparse :
    load (fun _ => .ok (Text.Utf8.encode (sparse 5).compact)) "node.json" =
      .ok { console := { bufferLines := 5 } } ∧
    load (fun _ => .ok (Text.Utf8.encode (sparse 0).compact)) "node.json" =
      .error (.config "console buffer bounds must be > 0") ∧
    load (fun _ => .ok (Text.Utf8.encode (toJson {}).pretty)) "node.json" = .ok {} := by
  have hlisten : Endpoint.ofText? (Endpoint.text (.v4 (.ofOctets 10 0 0 1) 80)) =
      some (.v4 (.ofOctets 10 0 0 1) 80) := by decide +kernel
  have hdepth : (Json.nat 3).isReadable = true := Json.isReadable_nat (by decide)
  have hreads (lines : UInt64) : Doc.ReadsAs (sparse lines).compact (Doc.ofJson (sparse lines)) :=
    Doc.readsAs_compact (by
      simp [sparse, Json.texts, Json.isReadable, Json.membersReadable, Json.areReadable, hdepth])
  refine ⟨?_, ?_, ?_⟩
  · exact (load_spelled.1 (ofLines 5) linesOnly _ _ "node.json" _ hlisten (spells_sparse 5)
      (hreads 5) rfl).1 (by decide +kernel)
  · exact ((load_spelled.1 (ofLines 0) linesOnly _ _ "node.json" _ hlisten (spells_sparse 0)
      (hreads 0) rfl).2 _ rfl).1
  · exact load_spelled.2 {} _ "node.json" _ (by decide +kernel) (by decide +kernel) (.inr rfl) rfl

end NodeConfig

end VmNode
