import Localnet.Proofs.Config.Source
import Localnet.Proofs.Json.RoundTrip
import Localnet.Proofs.Layers

/-!
# No value is converted

A field that a file binds to something of the wrong kind makes the network invalid, whichever layer binds
it and however the layer is written. The exception are floats of TOML that are no numbers: JSON has none,
and they are taken for `null`.
-/

namespace Localnet

open Json (Value)

theorem FieldKind.Holds.int_or_text {kind : FieldKind} {v : Value} (h : kind.Holds v) :
    (∃ n, v = .int n) ∨ ∃ s, v = .text s := by
  unfold FieldKind.Holds at h
  split at h
  · exact .inl ⟨_, rfl⟩
  · exact .inl ⟨_, rfl⟩
  · exact .inr ⟨_, rfl⟩
  · exact h.elim

namespace Written

/-- What a document binds a field to, where a text stands for the object that it reads as. -/
def field? (name : String) : Written → Option Written
  | .json (.object members) => (Members.find? name members).map .json
  | .toml (.table members) => (Members.find? name (Members.ofList members)).map .toml
  | .json (.text s) | .toml (.text s) =>
    match Json.parseObject s with
    | .ok members => (Members.find? name members).map .json
    | .error _ => none
  | _ => none

/-- Only texts and integers can be what a field has to hold. -/
def Holds (kind : FieldKind) : Written → Prop
  | .json v => kind.Holds v
  | .toml (.text s) => kind.Holds (.text s)
  | .toml (.int n) => kind.Holds (.int n)
  | .toml _ => False

/-- A float that is no number, which only TOML can have. -/
def IsSpecial : Written → Prop
  | .toml (.float x) => ¬ x.isFinite
  | _ => False

theorem holds_of_toJson {kind : FieldKind} {w : Written} (h : kind.Holds w.toJson) : w.Holds kind := by
  cases w with
  | json v => exact h
  | toml v =>
      have hscalar : (∃ n, v.toJson = .int n) ∨ ∃ s, v.toJson = .text s := h.int_or_text
      cases v with
      | text s => exact h
      | int n => exact h
      | float x =>
          by_cases hx : x.isFinite <;> simp [Toml.Value.toJson, hx] at hscalar
      | _ => simp [Toml.Value.toJson] at hscalar

theorem null_or_special_of_toJson {w : Written} (h : w.toJson = .null) : w = .json .null ∨ w.IsSpecial := by
  cases w with
  | json v => exact .inl (congrArg _ h)
  | toml v =>
      have hnull : v.toJson = .null := h
      cases v with
      | float x =>
          by_cases hx : x.isFinite
          · simp [Toml.Value.toJson, hx] at hnull
          · exact .inr hx
      | _ => simp [Toml.Value.toJson] at hnull

end Written

/-! ### Fields of documents that are read again -/

theorem Json.find?_of_sameUpToFloats {members members' : List (String × Value)}
    (h : (Value.object members).SameUpToFloats (.object members')) {name : String} {v : Value}
    (hv : Members.find? name members = some v) :
    ∃ v', Members.find? name members' = some v' ∧ v.SameUpToFloats v' := by
  rw [Value.SameUpToFloats, Value.blur_object, Value.blur_object] at h
  have hmembers : Members.mapValues Value.blur members' = Members.mapValues Value.blur members :=
    Value.object.inj h
  have hfind := congrArg (Members.find? name) hmembers
  rw [Members.find?_mapValues, Members.find?_mapValues, hv] at hfind
  exact Option.map_eq_some_iff.mp hfind

/-- A field of an object is there when the object is written and read, and only its floats differ. -/
theorem find?_of_embedded {members : List (String × Value)} (hregular : (Value.object members).isRegular)
    {name : String} {v : Value} (hv : Members.find? name members = some v)
    {read : List (String × Value)} (hread : Json.parseObject (embedded (.object members)) = .ok read) :
    ∃ v', Members.find? name read = some v' ∧ v.SameUpToFloats v' := by
  have hparse := Json.parseObject_eq_ok_iff.mp hread
  exact Json.find?_of_sameUpToFloats (Json.sameUpToFloats_of_parse_write hregular hparse) hv

/-- A document that binds a field is kept as a text that binds the field to the same value, up to floats,
or holds no object. -/
theorem Written.field_of_embedded {document w : Written} {name : String}
    (hregular : document.toJson.isRegular) (hw : document.field? name = some w) :
    ∃ text, embedded? document.toJson = some text ∧ text ≠ "" ∧
      ∀ members, Json.parseObject text = .ok members →
        ∃ v, Members.find? name members = some v ∧ w.toJson.SameUpToFloats v := by
  have hobject : ∀ members, (Value.object members).isRegular → ∀ v, Members.find? name members = some v →
      ∃ text, embedded? (.object members) = some text ∧ text ≠ "" ∧
        ∀ read, Json.parseObject text = .ok read →
          ∃ v', Members.find? name read = some v' ∧ v.SameUpToFloats v' := by
    intro members hregular v hv
    refine ⟨(Value.object members).write, rfl, ?_, fun read hread => find?_of_embedded hregular hv hread⟩
    intro hempty
    have hchars := congrArg String.toList hempty
    rw [Value.write, String.toList_ofList, Value.chars] at hchars
    cases hchars
  have htext : ∀ s, (match Json.parseObject s with
        | .ok members => (Members.find? name members).map Written.json
        | .error _ => none) = some w →
      s ≠ "" ∧ ∀ members, Json.parseObject s = .ok members →
        ∃ v, Members.find? name members = some v ∧ w.toJson.SameUpToFloats v := by
    intro s hs
    constructor
    · rintro rfl
      cases hs
    · intro members hmembers
      rw [hmembers] at hs
      obtain ⟨v, hv, rfl⟩ := Option.map_eq_some_iff.mp hs
      exact ⟨v, hv, .refl v⟩
  unfold field? at hw
  split at hw
  next members =>
    obtain ⟨v, hv, rfl⟩ := Option.map_eq_some_iff.mp hw
    exact hobject members hregular v hv
  next members =>
    obtain ⟨v, hv, rfl⟩ := Option.map_eq_some_iff.mp hw
    refine hobject _ hregular v.toJson ?_
    rw [Toml.toJsonMembers_eq_mapValues, Members.ofList_mapValues, Members.find?_mapValues, hv]
    rfl
  next s => exact ⟨s, rfl, htext s hw⟩
  next s => exact ⟨s, rfl, htext s hw⟩
  next => cases hw

/-! ### Bindings -/

/-- The fields that a node binds, and what to, as it is written: in its own flags or else in those of the
network, in its config file and in the document of its implementation. -/
inductive NetworkSource.Binds (source : NetworkSource) (node : NodeSource) (field : String × FieldKind)
    (w : Written) : Prop
  | flags (hfield : field ∈ Fields.settings)
      (hw : (node.flags.get? field.1).or (source.flags.get? field.1) = some w)
  | configFile (hfield : field ∈ Fields.settings) (document : Written)
      (hdocument : node.configDocument = some document) (hw : document.field? field.1 = some w)
  | implDocument (hfield : field ∈ Fields.ofImpl) (document : Written)
      (hdocument : node.implDocument = some document) (hw : document.field? field.1 = some w)

theorem floatFree_of_wellTyped {kind : FieldKind} {v : Value} (h : v = .null ∨ kind.Holds v) :
    v.isFloatFree := by
  rcases h with rfl | h
  · rfl
  · rcases h.int_or_text with ⟨n, rfl⟩ | ⟨s, rfl⟩ <;> rfl

/-- What a valid network binds a field to is of the right kind, null, or a float that is no number. -/
theorem NetworkSource.Binds.holds {source : NetworkSource} {node : NodeSource} {field : String × FieldKind}
    {w : Written} (h : source.Binds node field w) (hnode : node ∈ source.nodes)
    (hregular : source.Documents fun v => v.isRegular) {valid : ValidatedNetwork}
    (hvalid : Validation.validate source.config = .ok valid) :
    w = .json .null ∨ w.IsSpecial ∨ w.Holds field.2 := by
  have hwell : Validation.WellFormed source.config :=
    Validation.violations_eq_nil_iff.mp
      ((Validation.reports_validate source.config).exists_ok_iff.mp ⟨valid, hvalid⟩)
  obtain ⟨genesis, -, hnodes⟩ := hwell.nodes
  have hsound := hnodes node.config (List.mem_map_of_mem hnode)
  have hdone : w.toJson = .null ∨ field.2.Holds w.toJson →
      w = .json .null ∨ w.IsSpecial ∨ w.Holds field.2 := by
    rintro (hnull | hholds)
    · exact (Written.null_or_special_of_toJson hnull).imp_right .inl
    · exact .inr (.inr (Written.holds_of_toJson hholds))
  -- documents are written and read again on the way, flags are not
  have hsame : ∀ v, w.toJson.SameUpToFloats v → v = .null ∨ field.2.Holds v →
      w.toJson = .null ∨ field.2.Holds w.toJson := by
    intro v hv htyped
    have heq : w.toJson = v := Value.SameUpToFloats.eq hv.symm (floatFree_of_wellTyped htyped)
    rwa [heq]
  cases h with
  | flags hfield hw =>
      have hplain : ∀ field ∈ Fields.settings, field.1 ≠ "log-level" := by decide
      have hflag : (source.config.flagsOf node.config).get? field.1 = some w.toJson := by
        rw [get?_flagsOf, if_neg (hplain field hfield), Option.or_none]
        change ((node.flags.mapValues Written.toJson).get? field.1).or
          ((source.flags.mapValues Written.toJson).get? field.1) = _
        rw [Table.get?_mapValues, Table.get?_mapValues, ← Option.map_or, hw]
        rfl
      exact hdone (hsound.flags.typed field hfield w.toJson hflag)
  | configFile hfield document hdocument hw =>
      obtain ⟨text, htext, hempty, hread⟩ :=
        Written.field_of_embedded ((hregular node hnode).2 _ hdocument) hw
      have hkept : node.config.configDocument = some text := by
        rw [NodeSource.config, hdocument]
        exact htext
      obtain ⟨members, hparse, hsound⟩ := hsound.file text hkept hempty
      obtain ⟨v, hv, hsimilar⟩ := hread members hparse
      exact hdone (hsame v hsimilar (hsound.typed field hfield v hv))
  | implDocument hfield document hdocument hw =>
      obtain ⟨text, htext, -, hread⟩ := Written.field_of_embedded ((hregular node hnode).1 _ hdocument) hw
      obtain ⟨text', members, hkept, -, hparse, hsound⟩ := hsound.impl
      have heq : text' = text := by
        rw [NodeSource.config, hdocument] at hkept
        exact Option.some.inj (hkept.symm.trans htext)
      subst heq
      obtain ⟨v, hv, hsimilar⟩ := hread members hparse
      exact hdone (hsame v hsimilar (hsound.typed field hfield v hv))

/-- **Nothing is converted.** In a file that is loaded, a node that binds a field to something else than
`null` and what the field has to hold makes the network invalid, unless it is a float that is no
number. -/
theorem NetworkConfig.invalid_of_mistyped {path : String} {contents : Except SystemError ByteArray}
    {config : NetworkConfig} (h : NetworkConfig.load path contents = .ok config) :
    ∃ source, NetworkSource.load path contents = .ok source ∧ source.config = config ∧
      ∀ node ∈ source.nodes, ∀ field w, source.Binds node field w → w ≠ .json .null →
        ¬ w.Holds field.2 → ¬ w.IsSpecial → ∃ e, Validation.validate config = .error e := by
  rw [NetworkConfig.load_eq] at h
  cases hsource : NetworkSource.load path contents with
  | error e =>
      rw [hsource] at h
      cases h
  | ok source =>
      rw [hsource] at h
      cases h
      refine ⟨source, rfl, rfl, fun node hnode field w hbinds hnull hholds hspecial => ?_⟩
      cases hvalid : Validation.validate source.config with
      | error e => exact ⟨e, rfl⟩
      | ok valid =>
          rcases hbinds.holds hnode (NetworkSource.regular_of_load hsource) hvalid with h | h | h
          · exact absurd h hnull
          · exact absurd h hspecial
          · exact absurd h hholds

/-! ### A port in a TOML file -/

theorem fileText_toUTF8 (text : String) : fileText text.toUTF8 = .ok text := by
  have hread : String.fromUTF8? text.toUTF8 = some text := by
    rw [String.fromUTF8?, String.toUTF8_eq_toByteArray, dif_pos text.isValidUTF8]
    rfl
  rw [fileText, hread]

theorem NetworkSource.load_of_parseToml {path text : String} {source : NetworkSource}
    (hpath : Path.extension? path = some "toml") (h : parseToml text = some source) :
    load path (.ok text.toUTF8) = .ok source := by
  have hcontents : ((Except.ok text.toUTF8 : Except SystemError ByteArray).mapError FileFault.system).bind
      fileText = .ok text := fileText_toUTF8 text
  rw [load, hcontents]
  dsimp only
  rw [if_pos hpath, h]

/-- A network of one beacon, with its port as TOML has it. -/
def portFile (port : String) : String :=
  "genesis = '\x7b\"networkID\":3\x7d'
  nodeConfigs = [\x7bisBeacon=true, implSpecificConfig='\x7b\x7d', flags=\x7bhttp-port=" ++ port ++
    "\x7d\x7d]"

def portSource (port : Toml.Value) : NetworkSource :=
  { NetworkSource.empty with
    genesis := some (.toml (.text "\x7b\"networkID\":3\x7d"))
    nodes :=
      [{ NodeSource.empty with
          isBeacon := true
          implDocument := some (.toml (.text "\x7b\x7d"))
          flags := ⟨[("http-port", .toml port)], by simp [Members.Ordered]⟩ }] }

theorem binds_portSource (port : Toml.Value) :
    ∃ node ∈ (portSource port).nodes, (portSource port).Binds node ("http-port", .port) (.toml port) :=
  ⟨_, List.mem_cons_self, .flags (by decide) rfl⟩

theorem load_portFile {port : String} {v : Toml.Value}
    (h : NetworkSource.parseToml (portFile port) = some (portSource v)) :
    NetworkSource.load "n.toml" (.ok (portFile port).toUTF8) = .ok (portSource v) ∧
      NetworkConfig.load "n.toml" (.ok (portFile port).toUTF8) = .ok (portSource v).config := by
  have hpath : Path.extension? "n.toml" = some "toml" := by decide +kernel
  have hsource := NetworkSource.load_of_parseToml hpath h
  refine ⟨hsource, ?_⟩
  rw [NetworkConfig.load_eq, hsource]
  rfl

theorem NetworkConfig.invalid_of_text_port :
    ∃ config e, NetworkConfig.load "n.toml" (.ok (portFile "'9650'").toUTF8) = .ok config ∧
      Validation.validate config = .error e := by
  have hparse : NetworkSource.parseToml (portFile "'9650'") = some (portSource (.text "9650")) := by
    decide +kernel
  obtain ⟨hsource, hload⟩ := load_portFile hparse
  obtain ⟨source, hfound, heq, hinvalid⟩ := NetworkConfig.invalid_of_mistyped hload
  cases hsource.symm.trans hfound
  obtain ⟨node, hnode, hbinds⟩ := binds_portSource (.text "9650")
  obtain ⟨e, he⟩ := hinvalid node hnode _ _ hbinds nofun id nofun
  exact ⟨_, e, hload, he⟩

/-- A port that is no number is taken for none. -/
theorem NetworkConfig.valid_of_nan_port :
    ∃ source config node w, NetworkSource.load "n.toml" (.ok (portFile "nan").toUTF8) = .ok source ∧
      NetworkConfig.load "n.toml" (.ok (portFile "nan").toUTF8) = .ok config ∧
      node ∈ source.nodes ∧ source.Binds node ("http-port", .port) w ∧ w ≠ .json .null ∧
      ¬ w.Holds .port ∧ ∃ valid, Validation.validate config = .ok valid := by
  have hparse : NetworkSource.parseToml (portFile "nan") = some (portSource (.float .nan)) := by
    decide +kernel
  obtain ⟨hsource, hload⟩ := load_portFile hparse
  obtain ⟨node, hnode, hbinds⟩ := binds_portSource (.float .nan)
  have hvalid : (Validation.validate (portSource (.float .nan)).config).isOk := by decide +kernel
  refine ⟨_, _, node, _, hsource, hload, hnode, hbinds, nofun, id, ?_⟩
  cases hresult : Validation.validate (portSource (.float .nan)).config with
  | ok valid => exact ⟨valid, rfl⟩
  | error e =>
      rw [hresult] at hvalid
      cases hvalid

end Localnet
