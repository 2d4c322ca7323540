/-
# The output layout

The configuration of the output layout, which says for every output where its image comes
from, and the search for an output by its name or its number.
-/
import WayfireIpc.Compositor.State

namespace WayfireIpc

/-- The pointer of a `wlr_output`. -/
abbrev WlrOutput := ℕ

/-- `wf::output_image_source_t`. -/
inductive OutputImageSource
  | invalid | self | none | dpms | mirror
deriving DecidableEq, Repr

/-- An entry of the configuration: the output, and of its `wf::output_state_t` the part that is
read here. -/
structure OutputState where
  output : WlrOutput
  source : OutputImageSource
deriving DecidableEq, Repr

/-- `wf::output_configuration_t`, in the order of its map. -/
abbrev OutputConfiguration := List OutputState

namespace Compositor

variable (c : Compositor)

/-- `command::all_output_by_name`. -/
def allOutputByName (name : Str) : Option OutputRef :=
  c.outputs.find? fun o => (c.output o).name = name

/-- `command::all_output_by_id`. -/
def allOutputById (id : UInt32) : Option OutputRef := c.outputs.find? fun o => (c.output o).id = id

/-- `command::all_output_by_name_or_id`.  What `std::stoi` throws is caught. -/
def allOutputByNameOrId (nameOrId : Str) : Option OutputRef :=
  match c.allOutputByName nameOrId with
  | some o => some o
  | none =>
    match stoi nameOrId with
    | .ok id => c.allOutputById id.toUInt32
    | .error _ => none

end Compositor

end WayfireIpc
