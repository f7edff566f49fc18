import SchedulerPolicy.Value

/-!
# Layers of settings

Settings come in layers, and a later layer has its way: mappings are joined key by key and at every
depth, and anything else replaces what was there (`overlay`). `overlayAll` applies layers one after
the other.
-/

namespace SchedulerPolicy

/-- Puts at `key` what `f` makes of the value there, and keeps the other entries. A new entry comes
last. -/
def alterEntry (key : Value) (f : Option Value → Value) :
    List (Value × Value) → List (Value × Value)
  | [] => [(key, f none)]
  | (k, v) :: rest => if k == key then (k, f (some v)) :: rest else (k, v) :: alterEntry key f rest

mutual

/-- A layer on top of a value. -/
def overlay (base : Value) : Value → Value
  | .map layer =>
    match base with
    | .map entries => .map (overlayEntries entries layer)
    | _ => .map layer
  | v => v
termination_by structural layer => layer

/-- The entries of a layer on top of those of a mapping. -/
def overlayEntries (entries : List (Value × Value)) :
    List (Value × Value) → List (Value × Value)
  | [] => entries
  | (key, v) :: rest =>
    let altered := alterEntry key (fun
      | some base => overlay base v
      | none => v) entries
    overlayEntries altered rest
termination_by structural layer => layer

end

/-- All layers, the first one lowest. -/
def overlayAll (layers : List Value) : Value := layers.foldl overlay .null

end SchedulerPolicy
