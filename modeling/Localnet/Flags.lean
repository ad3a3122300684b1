import Localnet.Json.Writer
import Localnet.Table

/-!
Flags: values under the names of command line flags, and the arguments they are passed as.
-/

namespace Localnet

abbrev Flags := Table Json.Value

namespace Flags

/-- The text of one value: strings as they are, all else as JSON. -/
def render : Json.Value → String
  | .text s => s
  | v => v.write

/-- One argument for each flag, in the order of the names. -/
def arguments (flags : Flags) : List String :=
  flags.entries.map fun entry => "--" ++ entry.1 ++ "=" ++ render entry.2

@[simp] theorem render_text (s : String) : render (.text s) = s := rfl

theorem render_of_ne_text {v : Json.Value} (h : ∀ s, v ≠ .text s) : render v = v.write := by
  unfold render
  split
  next s => exact absurd rfl (h s)
  next => rfl

theorem mem_arguments_iff {flags : Flags} {arg : String} :
    arg ∈ flags.arguments ↔
      ∃ entry ∈ flags.entries, "--" ++ entry.1 ++ "=" ++ render entry.2 = arg :=
  List.mem_map

end Flags

end Localnet
