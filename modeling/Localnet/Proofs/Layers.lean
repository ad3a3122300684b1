import Localnet.Proofs.Table
import Localnet.Proofs.Violations

/-!
# Settings in layers

A setting has the value of the first layer that binds its field to something else than `null`: the
node's effective flags, then its config file, then the document of its implementation. A flag has the
value that the node gives it, `null` among them, or else the network's.
-/

namespace Localnet

open Json (Value)
open Network (portValue)

namespace Fields

/-- What a field is bound to, where `null` is nothing. -/
def bound? (get : Fields) (field : String) : Option Value :=
  match get field with
  | some .null => none
  | found => found

/-- What the first of some layers that binds a field binds it to. -/
def first? (layers : List Fields) (field : String) : Option Value :=
  layers.findSome? (·.bound? field)

end Fields

/-- Settings that have the values of their fields. -/
structure Declares (value : String → Option Value) (settings : NodeSettings) : Prop where
  dbDir : value "db-dir" = settings.dbDir.map .text
  logDir : value "log-dir" = settings.logDir.map .text
  httpPort : value "http-port" = settings.httpPort.map portValue
  stakingPort : value "staking-port" = settings.stakingPort.map portValue

theorem bound?_of_declared? {α : Type} {get : Fields} {source : SettingsSource} {field : String}
    {kind : FieldKind} {decode : Value → Option α} {encode : α → Value} {declared : Option α}
    (hdecode : ∀ {v a}, decode v = some a ↔ v = encode a)
    (h : declared? get source field kind decode = .ok declared) :
    get.bound? field = declared.map encode := by
  unfold declared? at h
  unfold Fields.bound?
  split at h
  next hget =>
    cases h
    rw [hget]
    rfl
  next hget =>
    cases h
    rw [hget]
    rfl
  next v hnull hget =>
    cases hv : decode v with
    | none =>
        rw [hv] at h
        cases h
    | some a =>
        rw [hv] at h
        cases h
        have hencode := hdecode.mp hv
        subst hencode
        rw [hget]
        split
        next heq => exact absurd (Option.some.inj heq) hnull
        next => rfl

theorem declares_of_decode {get : Fields} {source : SettingsSource} {settings : NodeSettings}
    (h : NodeSettings.decode get source = .ok settings) : Declares get.bound? settings := by
  simp only [NodeSettings.decode, Validation.bind_eq_ok_iff] at h
  obtain ⟨_, -, dbDir, hdbDir, logDir, hlogDir, httpPort, hhttpPort, stakingPort, hstakingPort, heq⟩ := h
  cases heq
  exact ⟨bound?_of_declared? asText?_eq_some_iff hdbDir, bound?_of_declared? asText?_eq_some_iff hlogDir,
    bound?_of_declared? asPort?_eq_some_iff hhttpPort,
    bound?_of_declared? asPort?_eq_some_iff hstakingPort⟩

theorem Declares.over {value value' : String → Option Value} {upper lower : NodeSettings}
    (h : Declares value upper) (h' : Declares value' lower) :
    Declares (fun field => (value field).or (value' field)) (upper.«over» lower) where
  dbDir := by simp only [h.dbDir, h'.dbDir, NodeSettings.«over», Option.map_or]
  logDir := by simp only [h.logDir, h'.logDir, NodeSettings.«over», Option.map_or]
  httpPort := by simp only [h.httpPort, h'.httpPort, NodeSettings.«over», Option.map_or]
  stakingPort := by simp only [h.stakingPort, h'.stakingPort, NodeSettings.«over», Option.map_or]

/-- The settings of an accepted node are those of its layers. -/
theorem declares_of_validateNode {node : NodeConfig} {label : String} {flags : Flags}
    {genesis : NetworkId} {valid : ValidatedNode}
    (h : Validation.validateNode node label flags genesis = .ok valid) :
    Declares (Fields.first? (Validation.layersOf node flags)) valid.settings := by
  simp only [Validation.validateNode, Validation.bind_eq_ok_iff] at h
  obtain ⟨impl, himpl, fromFile, hfile, fromFlags, hflags, _, -, staking, -, heq⟩ := h
  cases heq
  have hflags' := declares_of_decode (Validation.mapError_eq_ok_iff.mp hflags)
  have hfile' := declares_of_decode (Validation.decode_of_fileSettings hfile)
  have himpl' := declares_of_decode (Validation.decode_of_implDocument himpl)
  have hfirst : Fields.first? (Validation.layersOf node flags) = fun field =>
      ((Fields.bound? flags.get? field).or
        ((Validation.documentFields node.configFile?).bound? field)).or
        ((Validation.documentFields node.implDocument).bound? field) := by
    funext field
    simp only [Fields.first?, Validation.layersOf, List.findSome?]
    cases Fields.bound? flags.get? field <;>
      cases (Validation.documentFields node.configFile?).bound? field <;>
      cases (Validation.documentFields node.implDocument).bound? field <;> rfl
  rw [hfirst]
  exact (hflags'.over hfile').over himpl'

/-- The log level of a network counts where neither the node nor the network has that flag. -/
theorem get?_flagsOf (config : NetworkConfig) (node : NodeConfig) (name : String) :
    (config.flagsOf node).get? name =
      (node.flags.get? name).or ((config.flags.get? name).or
        (if name = "log-level" then config.logLevel.map .text else none)) := by
  rw [NetworkConfig.flagsOf, Table.get?_merge]
  refine congrArg _ ?_
  unfold NetworkConfig.effectiveFlags
  cases config.logLevel with
  | none => simp
  | some level => exact Table.get?_insertIfNew _ _ _ _

end Localnet
