import GraphWalk.Walk.Pipe

/-!
# Pipes to register by hand

Small pipes outside the default registry. They show what a pipe is free to do: end the walk,
forget the bindings, publish them, or offer one walker twice.
-/

namespace GraphWalk.Pipe

def upper (c : Char) : Char := if 'a' ≤ c ∧ c ≤ 'z' then Char.ofNat (c.toNat - 32) else c

/-- The result becomes the `name` attribute with its ASCII letters in upper case, if the
attribute is a string, and is cleared otherwise. -/
def shout : Pipe := stateless fun g _ w origins =>
  let result := match (g.vertices[w.vertex]?).bind (·.get? "name") with
    | some (.str s) => some (Json.str (s.map upper))
    | _ => none
  (.walker { w with result }, origins, [])

def drop : Pipe := stateless fun _ _ _ origins => (.nothing, origins, [])

def stop : Pipe := fun _ _ _ memory origins => ⟨.done, memory, origins, []⟩

/-- The result becomes the value given as first argument. -/
def constant : Pipe := stateless fun _ args w origins =>
  (.walker { w with result := args.head?.bind Arg.value? }, origins, [])

/-- Continues with a walker that has bindings of its own. -/
def fresh : Pipe := stateless fun _ _ w origins =>
  let (w, origins) := origins.start w.vertex
  (.walker w, origins, [])

/-- The result becomes an object of the labels and the ids of the vertices bound under them. -/
def bindings : Pipe := stateless fun g _ w origins =>
  let shown := Json.ofTable ((origins.bindings w).map fun v => (g.idOf v).toJson)
  (.walker { w with result := some shown }, origins, [])

/-- Offers every walker a second time when asked again. -/
def twice : Pipe := fun _ _ input memory origins =>
  match memory, input with
  | .own _ (w :: _), _ => ⟨.walker w, .own .null [], origins, []⟩
  | _, none => ⟨.pull, .own .null [], origins, []⟩
  | _, some w => ⟨.walker w, .own .null [w], origins, []⟩

end GraphWalk.Pipe
