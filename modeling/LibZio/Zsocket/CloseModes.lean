import LibZio.Zsocket.Draining

/-! # Immediate and deferred closes

A close outside the loop tears the socket down at once; a close in the loop flags it and leaves the
teardown to the passes of `zsocket_do_close`. The two agree only where a close has no consequences
for another socket and the passes find nothing else to do: a connection is freed by the passes
alone, and the teardown of a server outside the loop follows the node of the first socket it
unlinks. -/

namespace LibZio

variable {w w' : World} {s t : Sid} {z : ZSocket} {passes : ℕ → Sid → CloseIo}

/-! ## Outcomes -/

namespace World

end World

/-! ## What the passes do to a closed socket -/

/-- A close in the loop, in a well-formed world. -/
theorem World.WF.looping (hw : w.WF) (b : Bool) : World.WF { w with inLooping := b } :=
  hw.congr rfl rfl rfl rfl rfl rfl

end LibZio
