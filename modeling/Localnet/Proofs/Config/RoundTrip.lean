import Localnet.Proofs.Config.Source
import Localnet.Proofs.Json.RecordRoundTrip

/-!
# Configurations that are written and read

The written form of a configuration reads back as the same configuration, as long as its flags hold no
floats and nest no deeper than the reader allows. One that was read before nests deep enough at most.
-/

namespace Localnet

open Json (Fits Reads TakenAs)

theorem Json.takenAs_of {α σ : Type} {fields : List (Json.Field σ)} {name : String} {reader : Json.Reader α}
    {put : α → σ → σ} {v : Json.Value} {a : α}
    (hfield : fields.find? (·.name = name) = some (.of name reader put)) (h : Reads reader v a) :
    TakenAs fields (name, v) (put a) :=
  ⟨_, hfield, h.map put⟩

theorem Json.reads_document {depth : Nat} (s : String) :
    Reads (Json.optional (Json.value depth)) (.text s) (some (.text s)) :=
  Json.reads_optional_text (Json.reads_value ⟨rfl, Nat.zero_le _⟩ rfl)

theorem NodeConfig.reads_toValue {node : NodeConfig} {depth : Nat}
    (hflags : Fits depth (.object node.flags.entries))
    (hfree : (Json.Value.object node.flags.entries).isFloatFree) :
    Reads (reader (depth + 1)) node.toValue node := by
  obtain ⟨name, isBeacon, key, cert, impl, file, flags⟩ := node
  have hname : TakenAs (fields depth) ("name", .text name) _ :=
    Json.takenAs_of rfl (Json.reads_text name)
  have hbeacon : TakenAs (fields depth) ("isBeacon", .bool isBeacon) _ :=
    Json.takenAs_of rfl (Json.reads_bool isBeacon)
  have hkey : TakenAs (fields depth) ("stakingKey", .text key) _ :=
    Json.takenAs_of rfl (Json.reads_text key)
  have hcert : TakenAs (fields depth) ("stakingCert", .text cert) _ :=
    Json.takenAs_of rfl (Json.reads_text cert)
  have himpl : ∀ s, TakenAs (fields depth) ("implSpecificConfig", .text s) _ := fun s =>
    Json.takenAs_of rfl (Json.reads_document s)
  have hfile : ∀ s, TakenAs (fields depth) ("configFile", .text s) _ := fun s =>
    Json.takenAs_of rfl (Json.reads_document s)
  have htable : TakenAs (fields depth) ("flags", .object flags.entries) _ :=
    Json.takenAs_of rfl (Json.reads_table hflags hfree)
  have hplain := fun members puts (hmembers : List.Forall₂ (TakenAs (fields depth)) members puts) =>
    List.Forall₂.cons hname (.cons hbeacon (.cons hkey (.cons hcert hmembers)))
  cases impl with
  | none =>
      cases file with
      | none => exact Json.reads_record (hplain _ _ (.cons htable .nil)) (by simp) _ _
      | some s => exact Json.reads_record (hplain _ _ (.cons (hfile s) (.cons htable .nil))) (by simp) _ _
  | some t =>
      cases file with
      | none => exact Json.reads_record (hplain _ _ (.cons (himpl t) (.cons htable .nil))) (by simp) _ _
      | some s =>
          exact Json.reads_record (hplain _ _ (.cons (himpl t) (.cons (hfile s) (.cons htable .nil))))
            (by simp) _ _

/-- What holds of the flags of a network and of each of its nodes. -/
def NetworkConfig.AllFlags (good : Json.Value → Prop) (config : NetworkConfig) : Prop :=
  good (.object config.flags.entries) ∧ ∀ node ∈ config.nodes, good (.object node.flags.entries)

theorem NetworkConfig.reads_toValue {config : NetworkConfig} {depth : Nat}
    (hflags : Fits (depth + 2) (.object config.flags.entries))
    (hnodes : ∀ node ∈ config.nodes, Fits depth (.object node.flags.entries))
    (hfree : config.AllFlags fun v => v.isFloatFree) :
    Reads (reader (depth + 3)) config.toValue config := by
  obtain ⟨name, logLevel, genesis, nodes, flags⟩ := config
  have hname : TakenAs (fields (depth + 2)) ("name", .text name) _ :=
    Json.takenAs_of rfl (Json.reads_text name)
  have hlevel : ∀ s, TakenAs (fields (depth + 2)) ("logLevel", .text s) _ := fun s =>
    Json.takenAs_of rfl (Json.reads_optional_text (Json.reads_text s))
  have hgenesis : TakenAs (fields (depth + 2)) ("genesis", .text genesis) _ :=
    Json.takenAs_of rfl (Json.reads_value ⟨rfl, Nat.zero_le _⟩ rfl)
  have hlist : TakenAs (fields (depth + 2)) ("nodeConfigs", .list (nodes.map NodeConfig.toValue)) _ :=
    Json.takenAs_of rfl (Json.reads_list fun node hnode =>
      NodeConfig.reads_toValue (hnodes node hnode) (hfree.2 node hnode))
  have htable : TakenAs (fields (depth + 2)) ("flags", .object flags.entries) _ :=
    Json.takenAs_of rfl (Json.reads_table hflags hfree.1)
  cases logLevel with
  | none =>
      exact Json.reads_record (.cons hname (.cons hgenesis (.cons hlist (.cons htable .nil)))) (by simp) _ _
  | some s =>
      exact Json.reads_record (.cons hname (.cons (hlevel s) (.cons hgenesis (.cons hlist
        (.cons htable .nil))))) (by simp) _ _

theorem NodeConfig.depth_flags_le {node : NodeConfig} {n : Nat} (h : node.toValue.depth ≤ n + 1) :
    (Json.Value.object node.flags.entries).depth ≤ n :=
  Json.Value.depth_object_le_iff.mp h ("flags", .object node.flags.entries)
    (List.mem_append_right _ List.mem_cons_self)

theorem NetworkConfig.depth_flags_le {config : NetworkConfig} {n : Nat} (h : config.toValue.depth ≤ n + 1) :
    (Json.Value.object config.flags.entries).depth ≤ n :=
  Json.Value.depth_object_le_iff.mp h ("flags", .object config.flags.entries)
    (List.mem_append_right _ (List.mem_cons_of_mem _ (List.mem_cons_of_mem _ List.mem_cons_self)))

theorem NetworkConfig.depth_node_le {config : NetworkConfig} {n : Nat} (h : config.toValue.depth ≤ n + 2)
    {node : NodeConfig} (hnode : node ∈ config.nodes) : node.toValue.depth ≤ n :=
  Json.Value.depth_list_le_iff.mp
    (Json.Value.depth_object_le_iff.mp h ("nodeConfigs", .list (config.nodes.map NodeConfig.toValue))
      (List.mem_append_right _ (List.mem_cons_of_mem _ List.mem_cons_self)))
    node.toValue (List.mem_map_of_mem hnode)

/-- **Configurations survive being written.** A configuration whose flags hold no floats is read from its
written form if its brackets nest no deeper than the reader allows, and so is every such configuration
that was itself read. -/
theorem NetworkConfig.parse_write {config : NetworkConfig}
    (hfree : config.AllFlags fun v => v.isFloatFree)
    (hnested : (config.AllFlags fun v => v.isRegular) ∧ config.toValue.depth ≤ Json.depthLimit ∨
      ∃ text, parse text = .ok config) :
    parse config.toValue.write = .ok config := by
  have hfits : Fits (Json.depthLimit - 1) (.object config.flags.entries) ∧
      ∀ node ∈ config.nodes, Fits (Json.depthLimit - 3) (.object node.flags.entries) := by
    rcases hnested with ⟨⟨hflags, hnodes⟩, hdepth⟩ | ⟨text, hread⟩
    · exact ⟨⟨hflags, depth_flags_le hdepth⟩, fun node hnode =>
        ⟨hnodes node hnode, NodeConfig.depth_flags_le (depth_node_le hdepth hnode)⟩⟩
    · rw [parse_eq] at hread
      cases hsource : NetworkSource.parse text with
      | error e =>
          rw [hsource] at hread
          cases hread
      | ok source =>
          rw [hsource] at hread
          cases hread
          have hwritten := NetworkSource.fits_of_parse hsource
          refine ⟨hwritten.2.2, fun node hnode => ?_⟩
          obtain ⟨written, hmem, rfl⟩ := List.mem_map.mp hnode
          exact (hwritten.2.1 written hmem).2
  have hvalue : Reads (reader Json.depthLimit) config.toValue config :=
    reads_toValue hfits.1 hfits.2 hfree
  have hread := Json.gives_of_written hvalue
  unfold parse
  cases hresult : Json.read (reader Json.depthLimit) config.toValue.write with
  | ok read =>
      rw [hresult] at hread
      exact congrArg Except.ok hread
  | error e =>
      rw [hresult] at hread
      exact hread.elim

/-- A network of two nodes: one without documents, and one with an empty document and flags in
brackets. -/
def NetworkConfig.sparsePair : NetworkConfig :=
  { empty with
    genesis := "\x7b\"networkID\": 3\x7d"
    nodes :=
      [.empty,
        { NodeConfig.empty with
          implDocument := some ""
          configDocument := some "a\tb"
          flags := ⟨[("a", .list [.null, .object [("b", .text "\n"), ("c", .bool true)]])], by decide⟩ }] }

theorem NetworkConfig.parse_write_sparsePair : parse sparsePair.toValue.write = .ok sparsePair :=
  parse_write ⟨rfl, by decide⟩ (.inl ⟨⟨rfl, by decide⟩, by decide⟩)

end Localnet
