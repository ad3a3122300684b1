import Localnet.Proofs.Layers

/-!
# Layers in any number and grouping

Settings are decoded one source at a time and then put one over another. It does not matter in which
groups: what counts is the list of the layers, from the highest down. Each setting is exactly what the
first of them binds its field to, and nothing but the fields of the settings counts.
-/

namespace Localnet

open Json (Value)
open List (Forall₂)

/-- Settings that have the values of all their fields. -/
structure DeclaresAll (value : String → Option Value) (settings : NodeSettings) : Prop
    extends Declares value settings where
  networkId : value "network-id" = settings.networkId.map Genesis.idValue

structure Layer where
  fields : Fields
  source : SettingsSource

namespace Layer

def settings (layer : Layer) : Except FieldFault NodeSettings :=
  NodeSettings.decode layer.fields layer.source

/-- The first field that holds something else than it has to. -/
def fault? (layer : Layer) : Option FieldFault :=
  (Fields.settings.find? fun field => ¬ layer.fields.WellTyped field.1 field.2).map fun field =>
    ⟨layer.source, field.1, field.2⟩

/-- Layers of one source that bind the fields of the settings alike, whatever else they bind. -/
structure Alike (layer layer' : Layer) : Prop where
  source : layer.source = layer'.source
  fields : ∀ field ∈ Fields.settings, layer.fields field.1 = layer'.fields field.1

end Layer

/-- Layers in some grouping, the highest one first. -/
inductive Layering where
  | nothing
  | single (layer : Layer)
  | above (upper lower : Layering)

namespace Layering

def layers : Layering → List Layer
  | nothing => []
  | single layer => [layer]
  | above upper lower => upper.layers ++ lower.layers

def settings : Layering → Except FieldFault NodeSettings
  | nothing => return .none
  | single layer => layer.settings
  | above upper lower => return (← upper.settings).«over» (← lower.settings)

end Layering

/-! ### One layer -/

theorem declaresAll_of_decode {get : Fields} {source : SettingsSource} {settings : NodeSettings}
    (h : NodeSettings.decode get source = .ok settings) : DeclaresAll get.bound? settings := by
  refine ⟨declares_of_decode h, ?_⟩
  simp only [NodeSettings.decode, Validation.bind_eq_ok_iff] at h
  obtain ⟨networkId, hid, _, -, _, -, _, -, _, -, heq⟩ := h
  cases heq
  exact bound?_of_declared? asNetworkId?_eq_some_iff hid

theorem DeclaresAll.over {value value' : String → Option Value} {upper lower : NodeSettings}
    (h : DeclaresAll value upper) (h' : DeclaresAll value' lower) :
    DeclaresAll (fun field => (value field).or (value' field)) (upper.«over» lower) where
  toDeclares := h.toDeclares.over h'.toDeclares
  networkId := by simp only [h.networkId, h'.networkId, NodeSettings.«over», Option.map_or]

namespace Layer

variable {layer layer' : Layer}

theorem settings_eq_error_iff {fault : FieldFault} :
    layer.settings = .error fault ↔ layer.fault? = some fault := by
  rw [settings, Validation.reports_decode.eq_error_iff, Fields.faults, List.head?_map, List.head?_filter,
    fault?]

theorem isSome_fault?_of_float {field : String × FieldKind} {x : Binary64} (hfield : field ∈ Fields.settings)
    (hx : layer.fields field.1 = some (.float x)) : layer.fault?.isSome := by
  rw [fault?, Option.isSome_map, List.find?_isSome]
  refine ⟨field, hfield, ?_⟩
  rw [decide_eq_true_eq]
  intro hwell
  rcases hwell _ hx with hnull | hholds
  · cases hnull
  · obtain ⟨name, kind⟩ := field
    cases kind <;> exact hholds

/-- Only the fields of the settings are looked at. -/
theorem Alike.settings_eq (h : Alike layer layer') : layer.settings = layer'.settings := by
  obtain ⟨get, source⟩ := layer
  obtain ⟨get', source'⟩ := layer'
  obtain ⟨rfl, hfields⟩ := h
  simp only [Fields.settings, List.forall_mem_cons] at hfields
  obtain ⟨hid, hdb, hlog, hhttp, hstaking, -⟩ := hfields
  simp only [settings, NodeSettings.decode, declared?, hid, hdb, hlog, hhttp, hstaking]

end Layer

/-! ### All layers -/

/-- The settings of some layers, the highest one first. -/
def NodeSettings.ofLayers : List Layer → Except FieldFault NodeSettings
  | [] => return .none
  | layer :: rest => return (← layer.settings).«over» (← ofLayers rest)

theorem ofLayers_append (upper lower : List Layer) :
    NodeSettings.ofLayers (upper ++ lower) =
      (return (← NodeSettings.ofLayers upper).«over» (← NodeSettings.ofLayers lower)) := by
  induction upper with
  | nil =>
      simp only [List.nil_append, NodeSettings.ofLayers, pure_bind, NodeSettings.none_over, bind_pure]
  | cons layer rest ih =>
      simp only [List.cons_append, NodeSettings.ofLayers, ih, bind_assoc, pure_bind,
        NodeSettings.over_assoc]

/-- The grouping does not matter. -/
theorem Layering.settings_eq (layering : Layering) :
    layering.settings = NodeSettings.ofLayers layering.layers := by
  induction layering with
  | nothing => rfl
  | single layer => simp [settings, layers, NodeSettings.ofLayers]
  | above upper lower hupper hlower => rw [layers, ofLayers_append, settings, hupper, hlower]

theorem ofLayers_congr {layers layers' : List Layer} (h : Forall₂ Layer.Alike layers layers') :
    NodeSettings.ofLayers layers = NodeSettings.ofLayers layers' := by
  induction h with
  | nil => rfl
  | cons hlayer _ ih => rw [NodeSettings.ofLayers, NodeSettings.ofLayers, hlayer.settings_eq, ih]

theorem Fields.first?_cons (get : Fields) (rest : List Fields) :
    first? (get :: rest) = fun field => (get.bound? field).or (first? rest field) := by
  funext field
  rw [first?, List.findSome?_cons]
  cases get.bound? field <;> rfl

theorem exists_ofLayers {layers : List Layer} (h : ∀ layer ∈ layers, layer.settings.isOk) :
    ∃ settings, NodeSettings.ofLayers layers = .ok settings ∧
      DeclaresAll (Fields.first? (layers.map (·.fields))) settings := by
  induction layers with
  | nil => exact ⟨.none, rfl, ⟨rfl, rfl, rfl, rfl⟩, rfl⟩
  | cons layer rest ih =>
      obtain ⟨hlayer, hrest⟩ := List.forall_mem_cons.mp h
      obtain ⟨lower, hlower, hdeclares⟩ := ih hrest
      cases hupper : layer.settings with
      | error fault =>
          rw [hupper] at hlayer
          cases hlayer
      | ok upper =>
          refine ⟨upper.«over» lower, ?_, ?_⟩
          · rw [NodeSettings.ofLayers, hupper, hlower]
            rfl
          · rw [List.map_cons, Fields.first?_cons]
            exact (declaresAll_of_decode hupper).over hdeclares

/-- The settings of a validated node are those of its flags over its config file over the document of its
implementation. -/
theorem layering_of_validateNode {node : NodeConfig} {label : String} {flags : Flags} {genesis : NetworkId}
    {valid : ValidatedNode} (h : Validation.validateNode node label flags genesis = .ok valid) :
    (Layering.above (.above (.single ⟨flags.get?, .flags⟩)
      (.single ⟨Validation.documentFields node.configFile?, .configFile⟩))
      (.single ⟨Validation.documentFields node.implDocument, .implDocument⟩)).settings =
      .ok valid.settings := by
  simp only [Validation.validateNode, Validation.bind_eq_ok_iff] at h
  obtain ⟨impl, himpl, fromFile, hfile, fromFlags, hflags, _, -, staking, -, heq⟩ := h
  cases heq
  simp only [Layering.settings, Layer.settings, Validation.mapError_eq_ok_iff.mp hflags,
    Validation.decode_of_fileSettings hfile, Validation.decode_of_implDocument himpl]
  rfl

/-- **Layered settings.** If each layer can be decoded, all of them together have settings, and these
are exactly the values that the fields are first bound to. The grouping of the layers does not matter, and
nothing but the fields of the settings does. A layer cannot be decoded if and only if one of these is bound
to something else than it has to hold; the first one is reported, with its source. A float is never what
a field has to hold, whatever number it is. -/
theorem settings_are_layered :
    (∀ layering : Layering, (∀ layer ∈ layering.layers, layer.settings.isOk) →
      ∃ settings, layering.settings = .ok settings ∧
        DeclaresAll (Fields.first? (layering.layers.map (·.fields))) settings) ∧
    (∀ layering layering' : Layering, Forall₂ Layer.Alike layering.layers layering'.layers →
      layering.settings = layering'.settings) ∧
    (∀ (layer : Layer) (fault : FieldFault),
      layer.settings = .error fault ↔ layer.fault? = some fault) ∧
    ∀ layer : Layer, ∀ field ∈ Fields.settings, ∀ x, layer.fields field.1 = some (.float x) →
      layer.fault?.isSome := by
  refine ⟨fun layering h => ?_, fun layering layering' h => ?_, fun _ _ => Layer.settings_eq_error_iff,
    fun _ _ hfield _ hx => Layer.isSome_fault?_of_float hfield hx⟩
  · rw [layering.settings_eq]
    exact exists_ofLayers h
  · rw [layering.settings_eq, layering'.settings_eq]
    exact ofLayers_congr h

/-- The flags take back a port; a field that no layer above binds comes from the last one. -/
def threeLayers : Layering :=
  .above (.single ⟨.ofMembers [("db-dir", .text "/a"), ("http-port", .null)], .flags⟩)
    (.above (.single ⟨.ofMembers [("http-port", Network.portValue 9650)], .configFile⟩)
      (.single ⟨.ofMembers [("http-port", Network.portValue 9651), ("network-id", Genesis.idValue 7)],
        .implDocument⟩))

/-- The same layers in another grouping, with a field that is none of the settings. -/
def regroupedLayers : Layering :=
  .above
    (.above (.single ⟨.ofMembers [("api-admin", .bool true), ("db-dir", .text "/a"), ("http-port", .null)],
        .flags⟩)
      (.single ⟨.ofMembers [("http-port", Network.portValue 9650)], .configFile⟩))
    (.single ⟨.ofMembers [("http-port", Network.portValue 9651), ("network-id", Genesis.idValue 7)],
      .implDocument⟩)

/-- A port that is a number, but no integer. -/
def floatLayer : Layer := ⟨.ofMembers [("http-port", .float ⟨0x40C2D90000000000⟩)], .configFile⟩

theorem settings_of_threeLayers :
    (∀ layer ∈ threeLayers.layers, layer.settings.isOk) ∧
    (∃ settings, threeLayers.settings = .ok settings ∧
      DeclaresAll (Fields.first? (threeLayers.layers.map (·.fields))) settings) ∧
    threeLayers.settings.toOption = some ⟨some 7, some "/a", none, some 9650, none⟩ ∧
    Forall₂ Layer.Alike threeLayers.layers regroupedLayers.layers ∧
    threeLayers.settings = regroupedLayers.settings ∧
    floatLayer.settings = .error ⟨.configFile, "http-port", .port⟩ ∧ floatLayer.fault?.isSome := by
  have hok : ∀ layer ∈ threeLayers.layers, layer.settings.isOk :=
    List.all_eq_true.mp (by decide +kernel)
  have hflags : Layer.Alike ⟨.ofMembers [("db-dir", .text "/a"), ("http-port", .null)], .flags⟩
      ⟨.ofMembers [("api-admin", .bool true), ("db-dir", .text "/a"), ("http-port", .null)], .flags⟩ := by
    refine ⟨rfl, ?_⟩
    simp only [Fields.settings, List.forall_mem_cons]
    exact ⟨rfl, rfl, rfl, rfl, rfl, List.forall_mem_nil _⟩
  have halike : Forall₂ Layer.Alike threeLayers.layers regroupedLayers.layers :=
    .cons hflags (.cons ⟨rfl, fun _ _ => rfl⟩ (.cons ⟨rfl, fun _ _ => rfl⟩ .nil))
  have hport : ("http-port", FieldKind.port) ∈ Fields.settings := by simp [Fields.settings]
  exact ⟨hok, settings_are_layered.1 threeLayers hok, by decide +kernel, halike,
    settings_are_layered.2.1 _ _ halike,
    (settings_are_layered.2.2.1 floatLayer ⟨.configFile, "http-port", .port⟩).mpr (by decide +kernel),
    settings_are_layered.2.2.2 floatLayer _ hport _ rfl⟩

example :
    (["\x7b\"db-dir\":null,\"http-port\":1.0\x7d", "\x7b\"staking-port\":-0,\"db-dir\":\"\"\x7d",
      "\x7b\"staking-port\":-0,\"network-id\":4294967296\x7d"].map fun text =>
        (Json.parseObject text).toOption.bind fun members =>
          Layer.fault? ⟨.ofMembers members, .configFile⟩) =
      [some ⟨.configFile, "http-port", .port⟩, some ⟨.configFile, "staking-port", .port⟩,
        some ⟨.configFile, "network-id", .networkId⟩] := by
  decide +kernel

end Localnet
