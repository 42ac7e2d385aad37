/-!
# Replies of steps

The four answers of a step that is asked for a walker.
-/

namespace GraphWalk

/-- `walker` offers a walker to the right; `pull` asks the step to the left first; `done` is the
end of the step; `nothing` passes without an offer. -/
inductive Reply (W : Type)
  | walker (w : W)
  | pull
  | done
  | nothing

end GraphWalk
