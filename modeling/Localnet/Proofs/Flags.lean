import Localnet.Flags
import Localnet.Proofs.Table
import Mathlib.Data.List.Forall2

/-!
# Flags as arguments

What arguments some flags are passed as, without a look at how they are made: one for each flag, in the
order of the names, with the value behind the name. Strings stand as they are, all else as JSON.
-/

namespace Localnet.Flags

open Json (Value)
open List (Forall₂)

/-- What a value reads as in an argument. -/
inductive Spells : Value → String → Prop
  | text (s : String) : Spells (.text s) s
  | json {v : Value} : (∀ s, v ≠ .text s) → Spells v v.write

/-- The argument of one flag. -/
def Spells.Argument (entry : String × Value) (arg : String) : Prop :=
  ∃ text, Spells entry.2 text ∧ arg = "--" ++ entry.1 ++ "=" ++ text

/-- Arguments that are one for each flag, in the order of the names. -/
structure RenderAs (flags : Flags) (args : List String) : Prop where
  ordered : flags.names.Pairwise (· < ·)
  each : Forall₂ Spells.Argument flags.entries args

variable {flags : Flags} {args : List String} {v : Value} {text : String}

theorem spells_iff : Spells v text ↔ text = render v := by
  constructor
  · intro h
    cases h with
    | text => exact (render_text text).symm
    | json hnot => exact (render_of_ne_text hnot).symm
  · rintro rfl
    by_cases hnot : ∀ s, v ≠ .text s
    · rw [render_of_ne_text hnot]
      exact .json hnot
    · push Not at hnot
      obtain ⟨s, rfl⟩ := hnot
      exact .text s

theorem Spells.argument_eq :
    Spells.Argument = fun (entry : String × Value) arg =>
      "--" ++ entry.1 ++ "=" ++ render entry.2 = arg := by
  funext entry arg
  simp only [Spells.Argument, spells_iff, exists_eq_left, eq_comm]

/-- Flags are passed as nothing but their arguments. -/
theorem renderAs_iff : flags.RenderAs args ↔ args = flags.arguments := by
  have heach : Forall₂ Spells.Argument flags.entries args ↔ flags.arguments = args := by
    rw [Spells.argument_eq, arguments, ← List.forall₂_eq_eq_eq, List.forall₂_map_left_iff]
  constructor
  · exact fun h => (heach.mp h.each).symm
  · exact fun h => ⟨List.pairwise_map.mpr flags.ordered, heach.mpr h.symm⟩

example :
    arguments (.ofList [("log-level", .text "debug"), ("api-admin", .bool true), ("db-dir", .null)]) =
      ["--api-admin=true", "--db-dir=null", "--log-level=debug"] := by
  decide +kernel

theorem renderAs_arguments (flags : Flags) : flags.RenderAs flags.arguments := renderAs_iff.mpr rfl

theorem RenderAs.mem_of_get? {name s : String} (h : flags.RenderAs args)
    (hget : flags.get? name = some (.text s)) : "--" ++ name ++ "=" ++ s ∈ args := by
  rw [renderAs_iff.mp h, mem_arguments_iff]
  exact ⟨_, Table.mem_of_get?_eq_some hget, by rw [render_text]⟩

end Localnet.Flags
