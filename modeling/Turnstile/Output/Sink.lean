import Turnstile.Output.Line

/-!
# The output sink

Where captured lines go while their process still runs.
-/

namespace Turnstile.Output

/-- The output pipes of a process. -/
inductive Channel where
  | out
  | err
  deriving DecidableEq, Repr

namespace Channel

def name : Channel → String
  | .out => "stdout"
  | .err => "stderr"

end Channel

/-- A line as the sink is given it. -/
structure SinkLine where
  program : String
  channel : Channel
  text : String
  deriving DecidableEq, Repr

namespace SinkLine

def ofLine (program : String) (channel : Channel) (line : Line) : SinkLine :=
  ⟨program, channel, line.text⟩

end SinkLine

/-- What a sink was given on one channel, in order. -/
def onChannel (channel : Channel) (lines : List SinkLine) : List SinkLine :=
  lines.filter fun line => line.channel = channel

end Turnstile.Output
