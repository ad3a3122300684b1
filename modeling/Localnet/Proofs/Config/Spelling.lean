import Localnet.Proofs.Config.Source
import Localnet.Proofs.Json.RoundTrip
import Localnet.Proofs.Validation

/-!
# Documents as values and as texts

A document within a document may be written as a value or as a text that reads as that value. Validation
takes both for the same, whichever way the text spells the value.
-/

namespace Localnet

open Json (Value)

/-! ### Texts that read as one value -/

theorem Json.isDigit_of_isBlank {c : Char} (h : Text.isBlank c = true) : isDigit c = false := by
  by_contra hdigit
  simp only [Bool.not_eq_false, isDigit, Bool.and_eq_true, decide_eq_true_iff, Char.le_def,
    UInt32.le_iff_toNat_le] at hdigit
  have hlow : 48 ≤ c.toNat := hdigit.1
  have hhigh : c.toNat ≤ 57 := hdigit.2
  have hspace : c ≠ ' ' := by
    rintro rfl
    exact absurd hlow (by decide)
  simp only [Text.isBlank, Bool.or_eq_true, Bool.and_eq_true, decide_eq_true_iff, beq_iff_eq, hspace,
    or_false] at h
  omega

theorem Json.valueWith_of_allBlank {inner : Option (Json.Reader Value)} {cs : List Char}
    (h : ∀ c ∈ cs, Text.isBlank c = true) : ∃ fault, valueWith inner cs = .error fault := by
  unfold valueWith
  split
  · exact ⟨_, rfl⟩
  next c rest hskip =>
    have hblank : Text.isBlank c = true :=
      h c ((List.dropWhile_suffix isSpace).mem (hskip ▸ List.mem_cons_self : c ∈ skipSpace cs))
    have hdigit := isDigit_of_isBlank hblank
    have hne : c ≠ 'n' ∧ c ≠ 't' ∧ c ≠ 'f' ∧ c ≠ '"' ∧ c ≠ '-' ∧ c ≠ '[' ∧ c ≠ '\x7b' := by
      refine ⟨?_, ?_, ?_, ?_, ?_, ?_, ?_⟩ <;> (rintro rfl; cases hblank)
    obtain ⟨hn, ht, hf, hquote, hminus, hlist, hobject⟩ := hne
    simp only [if_neg hn, if_neg ht, if_neg hf, if_neg hquote, if_neg hminus, hdigit, if_neg hlist,
      if_neg hobject, Bool.false_eq_true, if_false]
    exact ⟨_, rfl⟩

/-- A text with nothing but blanks in it holds no value. -/
theorem Json.not_allBlank_of_parse {text : String} {v : Value} (h : Value.parse text = .ok v) :
    Text.allBlank text = false := by
  by_contra hblank
  have hread : ∃ fault, value depthLimit text.toList = .error fault :=
    valueWith_of_allBlank (List.all_eq_true.mp (Bool.not_eq_false _ ▸ hblank))
  obtain ⟨fault, hfault⟩ := hread
  unfold Value.parse read Reader.run? at h
  rw [hfault] at h
  cases h

theorem Json.parseObject_congr {s t : String} (h : Value.parse s = Value.parse t) :
    Json.parseObject s = Json.parseObject t := by
  unfold parseObject
  rw [h]

def SameReading (s t : String) : Prop := ∃ v, Value.parse s = .ok v ∧ Value.parse t = .ok v

section

variable {s t : String}

theorem SameReading.parseObject (h : SameReading s t) : Json.parseObject s = Json.parseObject t := by
  obtain ⟨v, hs, ht⟩ := h
  exact Json.parseObject_congr (hs.trans ht.symm)

theorem SameReading.allBlank (h : SameReading s t) : Text.allBlank s = false ∧ Text.allBlank t = false := by
  obtain ⟨v, hs, ht⟩ := h
  exact ⟨Json.not_allBlank_of_parse hs, Json.not_allBlank_of_parse ht⟩

theorem SameReading.ne_empty (h : SameReading s t) : s ≠ "" ∧ t ≠ "" := by
  obtain ⟨hs, ht⟩ := h.allBlank
  constructor
  · rintro rfl
    cases hs
  · rintro rfl
    cases ht

theorem SameReading.networkId (h : SameReading s t) : Genesis.networkId s = Genesis.networkId t := by
  unfold Genesis.networkId
  rw [h.allBlank.1, h.allBlank.2, h.parseObject]

end

namespace Validation

/-! ### Nodes that are checked alike -/

/-- Nodes that differ in nothing that the rest of a network depends on and pass or fail the same checks. -/
structure CheckedAlike (node node' : NodeConfig) : Prop where
  name : node.name = node'.name
  isBeacon : node.isBeacon = node'.isBeacon
  flags : node.flags = node'.flags
  checks : ∀ label flags genesis,
    validateNode node label flags genesis = validateNode node' label flags genesis

theorem CheckedAlike.refl (node : NodeConfig) : CheckedAlike node node :=
  ⟨rfl, rfl, rfl, fun _ _ _ => rfl⟩

variable {node : NodeConfig} {s t : String}

theorem checkedAlike_of_implDocument (h : SameReading s t) (hnode : node.implDocument = some s) :
    CheckedAlike node { node with implDocument := some t } := by
  refine ⟨rfl, rfl, rfl, fun label flags genesis => ?_⟩
  have himpl : implDocument node label = implDocument { node with implDocument := some t } label := by
    unfold implDocument ImplDocument.parse
    rw [hnode]
    simp only [Option.filter, h.allBlank.1, h.allBlank.2, Bool.not_false, if_true, h.parseObject]
  unfold validateNode
  rw [himpl]
  rfl

theorem checkedAlike_of_configDocument (h : SameReading s t) (hnode : node.configDocument = some s) :
    CheckedAlike node { node with configDocument := some t } := by
  refine ⟨rfl, rfl, rfl, fun label flags genesis => ?_⟩
  have hfile : fileSettings node label = fileSettings { node with configDocument := some t } label := by
    unfold fileSettings NodeConfig.configFile? NodeSettings.ofConfigFile
    rw [hnode]
    simp [Option.filter, h.ne_empty.1, h.ne_empty.2, h.parseObject]
  unfold validateNode
  rw [hfile]
  rfl

variable {nodes nodes' : List NodeConfig}

theorem resolveFrom_congr (h : List.Forall₂ CheckedAlike nodes nodes') (next : Nat) :
    Names.resolveFrom next nodes = Names.resolveFrom next nodes' := by
  induction h generalizing next with
  | nil => rfl
  | cons h _ ih => rw [Names.resolveFrom, Names.resolveFrom, h.name, ih, ih]

theorem generatedCount_congr (h : List.Forall₂ CheckedAlike nodes nodes') :
    Names.generatedCount nodes = Names.generatedCount nodes' := by
  induction h with
  | nil => rfl
  | cons h _ ih => rw [Names.generatedCount_cons, Names.generatedCount_cons, h.name, ih]

theorem checkBeacons_congr (h : List.Forall₂ CheckedAlike nodes nodes') :
    checkBeacons nodes = checkBeacons nodes' := by
  have hany : nodes.any (·.isBeacon) = nodes'.any (·.isBeacon) := by
    induction h with
    | nil => rfl
    | cons h _ ih => rw [List.any_cons, List.any_cons, h.isBeacon, ih]
  have hnil : nodes ≠ [] ↔ nodes' ≠ [] := by
    cases h <;> simp
  unfold checkBeacons
  simp only [hany, hnil]

theorem validateNodes_congr {config config' : NetworkConfig} (hlevel : config.logLevel = config'.logLevel)
    (hflags : config.flags = config'.flags) (h : List.Forall₂ CheckedAlike nodes nodes')
    (genesis : NetworkId) (index : Nat) :
    validateNodes config genesis index nodes = validateNodes config' genesis index nodes' := by
  have heffective : config.effectiveFlags = config'.effectiveFlags := by
    unfold NetworkConfig.effectiveFlags
    rw [hlevel, hflags]
  induction h generalizing index with
  | nil => rfl
  | @cons node node' _ _ h _ ih =>
      have hlabel : node.label index = node'.label index := by
        unfold NodeConfig.label
        rw [h.name]
      have hown : config.flagsOf node = config'.flagsOf node' := by
        unfold NetworkConfig.flagsOf
        rw [heffective, h.flags]
      rw [validateNodes, validateNodes, hlabel, hown, h.checks, ih]

theorem validate_congr {config config' : NetworkConfig}
    (hgenesis : Genesis.networkId config.genesis = Genesis.networkId config'.genesis)
    (hlevel : config.logLevel = config'.logLevel) (hflags : config.flags = config'.flags)
    (hnodes : List.Forall₂ CheckedAlike config.nodes config'.nodes) :
    validate config = validate config' := by
  unfold validate
  simp only [hgenesis, validateNodes_congr hlevel hflags hnodes, checkBeacons_congr hnodes,
    Names.resolve, resolveFrom_congr hnodes, generatedCount_congr hnodes]

end Validation

/-! ### One document in two spellings -/

/-- A document that is written as a value, and as a text that reads as that value. -/
inductive Respelled : Written → Written → Prop
  | intro {v : Value} {t : String} (htext : ∀ s, v ≠ .text s) (hnull : v ≠ .null) (hfree : v.isFloatFree)
      (hread : Value.parse t = .ok v) : Respelled (.json v) (.json (.text t))

/-- Nodes that differ in the spelling of one of their documents. -/
inductive NodeSource.Variant (node : NodeSource) : NodeSource → Prop
  | implDocument {w w' : Written} (hw : node.implDocument = some w) (h : Respelled w w') :
      Variant node { node with implDocument := some w' }
  | configDocument {w w' : Written} (hw : node.configDocument = some w) (h : Respelled w w') :
      Variant node { node with configDocument := some w' }

inductive NetworkSource.Variant (source : NetworkSource) : NetworkSource → Prop
  | genesis {w w' : Written} (hw : source.genesis = some w) (h : Respelled w w') :
      Variant source { source with genesis := some w' }
  | node {before after : List NodeSource} {node node' : NodeSource}
      (hnodes : source.nodes = before ++ node :: after) (h : node.Variant node') :
      Variant source { source with nodes := before ++ node' :: after }

/-- JSON documents that say the same but for the spelling of one document within them. -/
def Variants (text text' : String) : Prop :=
  ∃ source source', NetworkSource.parse text = .ok source ∧ NetworkSource.parse text' = .ok source' ∧
    source.Variant source'

theorem embedded_eq_write {v : Value} (htext : ∀ s, v ≠ .text s) (hnull : v ≠ .null) :
    embedded v = v.write := by
  cases v with
  | null => exact absurd rfl hnull
  | text s => exact absurd rfl (htext s)
  | _ => rfl

theorem embedded?_eq_some {v : Value} (hnull : v ≠ .null) : embedded? v = some (embedded v) := by
  cases v with
  | null => exact absurd rfl hnull
  | _ => rfl

/-- Both spellings of a document are kept as texts that read as one value. -/
theorem Respelled.sameReading {w w' : Written} (h : Respelled w w') {depth : Nat}
    (hfits : Json.Fits depth w.toJson) (hdepth : depth ≤ Json.depthLimit) :
    embedded? w.toJson = some (embedded w.toJson) ∧ embedded? w'.toJson = some (embedded w'.toJson) ∧
      SameReading (embedded w.toJson) (embedded w'.toJson) := by
  cases h with
  | @intro v t htext hnull hfree hread =>
      have hwritten := Json.parse_written hfits.1 hfree (hfits.2.trans hdepth)
      refine ⟨embedded?_eq_some hnull, rfl, v, ?_, hread⟩
      exact (congrArg Value.parse (embedded_eq_write htext hnull)).trans hwritten

theorem NodeSource.Variant.checkedAlike {node node' : NodeSource} (h : node.Variant node') {depth : Nat}
    (hfits : node.Fits depth) (hdepth : depth ≤ Json.depthLimit) :
    Validation.CheckedAlike node.config node'.config := by
  cases h with
  | @implDocument w w' hw h =>
      obtain ⟨hkept, hkept', hsame⟩ := h.sameReading (hfits.1.1 _ hw) hdepth
      have hdocument : node.config.implDocument = some (embedded w.toJson) := by
        rw [NodeSource.config, hw]
        exact hkept
      have hother := Validation.checkedAlike_of_implDocument hsame hdocument
      rwa [← hkept'] at hother
  | @configDocument w w' hw h =>
      obtain ⟨hkept, hkept', hsame⟩ := h.sameReading (hfits.1.2 _ hw) hdepth
      have hdocument : node.config.configDocument = some (embedded w.toJson) := by
        rw [NodeSource.config, hw]
        exact hkept
      have hother := Validation.checkedAlike_of_configDocument hsame hdocument
      rwa [← hkept'] at hother

theorem NetworkSource.Variant.validate_eq {source source' : NetworkSource} (h : source.Variant source')
    (hfits : source.Fits (Json.depthLimit - 3)) :
    Validation.validate source.config = Validation.validate source'.config := by
  have hrefl : ∀ nodes : List NodeSource,
      List.Forall₂ Validation.CheckedAlike (nodes.map NodeSource.config) (nodes.map NodeSource.config) :=
    fun nodes => List.forall₂_same.mpr fun node _ => .refl node
  cases h with
  | @genesis w w' hw h =>
      obtain ⟨-, -, hsame⟩ := h.sameReading (hfits.1 _ hw) (by decide)
      have hgenesis : source.config.genesis = embedded w.toJson := by
        rw [NetworkSource.config, hw]
        rfl
      refine Validation.validate_congr ?_ rfl rfl (hrefl source.nodes)
      rw [hgenesis]
      exact hsame.networkId
  | @node before after node node' hnodes h =>
      have hmem : node ∈ source.nodes := hnodes ▸ List.mem_append_right _ List.mem_cons_self
      have hnode := h.checkedAlike (hfits.2.1 node hmem) (by decide)
      refine Validation.validate_congr rfl rfl rfl ?_
      rw [NetworkSource.config, NetworkSource.config, hnodes, List.map_append, List.map_append]
      exact List.rel_append (hrefl before) (.cons hnode (hrefl after))

/-- **Either spelling.** Two JSON documents that are loaded and differ only in that one document within
them is written as a value in the one and as a text that reads as this value in the other come to the
same: the same error, or the same network. -/
theorem validate_eq_of_variants {text text' : String} {config config' : NetworkConfig}
    (hload : NetworkConfig.parse text = .ok config) (hload' : NetworkConfig.parse text' = .ok config')
    (hvariants : Variants text text') : Validation.validate config = Validation.validate config' := by
  obtain ⟨source, source', hsource, hsource', hvariant⟩ := hvariants
  rw [NetworkConfig.parse_eq, hsource] at hload
  rw [NetworkConfig.parse_eq, hsource'] at hload'
  cases hload
  cases hload'
  exact hvariant.validate_eq (NetworkSource.fits_of_parse hsource)

def nestedGenesis : String := "\x7b\"genesis\":\x7b\"networkID\":3\x7d\x7d"

/-- The same genesis as a text, with a blank and a network id that is overridden. -/
def spelledGenesis : String :=
  "\x7b\"genesis\":\"\x7b\\\"networkID\\\":1, \\\"networkID\\\":3\x7d\"\x7d"

theorem validate_eq_of_nestedGenesis :
    ∃ config config', NetworkConfig.parse nestedGenesis = .ok config ∧
      NetworkConfig.parse spelledGenesis = .ok config' ∧ Variants nestedGenesis spelledGenesis ∧
      Validation.validate config = Validation.validate config' := by
  let id : Value := .object [("networkID", Genesis.idValue 3)]
  have hnested : NetworkSource.parse nestedGenesis =
      .ok { NetworkSource.empty with genesis := some (.json id) } := by
    exact Validation.toOption_eq_some_iff.mp (by decide +kernel)
  have hspelled : NetworkSource.parse spelledGenesis = .ok
      { NetworkSource.empty with
        genesis := some (.json (.text "\x7b\"networkID\":1, \"networkID\":3\x7d")) } := by
    exact Validation.toOption_eq_some_iff.mp (by decide +kernel)
  have hread : Value.parse "\x7b\"networkID\":1, \"networkID\":3\x7d" = .ok id := by
    exact Validation.toOption_eq_some_iff.mp (by decide +kernel)
  have hload := NetworkConfig.parse_eq nestedGenesis
  have hload' := NetworkConfig.parse_eq spelledGenesis
  rw [hnested] at hload
  rw [hspelled] at hload'
  have hvariants : Variants nestedGenesis spelledGenesis :=
    ⟨_, _, hnested, hspelled, .genesis rfl (.intro nofun nofun rfl hread)⟩
  exact ⟨_, _, hload, hload', hvariants, validate_eq_of_variants hload hload' hvariants⟩

end Localnet
