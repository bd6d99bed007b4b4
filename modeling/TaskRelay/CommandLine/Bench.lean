import TaskRelay.CommandLine.Basic
import TaskRelay.Config
import TaskRelay.Text.Count

/-!
# The command line of the benchmark

How many tasks are submitted, how large their inputs are, and on how many threads they run. Without
a number of threads the engine uses its own default.
-/

namespace TaskRelay.Bench

structure Settings where
  tasks : Ranged .size
  /-- The size in bytes of the input of each task. -/
  payloadSize : Ranged .size
  threads : Option (Ranged .size)
deriving DecidableEq

namespace Settings

/-- A thousand tasks with ten thousand bytes each. -/
def default : Settings := ⟨⟨1000, by decide, by decide⟩, ⟨10000, by decide, by decide⟩, none⟩

instance : Inhabited Settings := ⟨default⟩

/-- The configuration of the engine that the benchmark starts. -/
def config (s : Settings) (c : Config) : Config :=
  { c with threadCount := s.threads, readySignal := some true }

end Settings

/-- A count as the value of an option. -/
def takeCount (value : String) : Except String (Ranged .size) :=
  (Count.parse value).mapError CountError.message

/-- A number of threads as the value of an option: there is at least one. -/
def takeThreads (value : String) : Except String (Ranged .size) :=
  match Count.parse value with
  | .error _ => .error ("`" ++ value ++ "` isn't a thread count")
  | .ok n => if n.val = 0 then .error "thread count must be at least 1" else .ok n

def flags : List (CommandLine.Flag Settings) :=
  [⟨"tasks", some 't', "TASKS", fun v s => (takeCount v).map fun n => { s with tasks := n }⟩,
    ⟨"payload-size", some 'p', "PAYLOAD_SIZE", fun v s =>
      (takeCount v).map fun n => { s with payloadSize := n }⟩,
    ⟨"threads", none, "THREADS", fun v s =>
      (takeThreads v).map fun n => { s with threads := some n }⟩]

/-- The settings of a command line. -/
def Settings.parse (arguments : List String) : Except CommandLine.Stop Settings :=
  CommandLine.read flags .default arguments

/-- What is shown when help is asked for. -/
def help : List String :=
  ["Send a batch of large-input tasks through a pipe and time the round trip",
    "",
    "Usage: tasklane-bench [OPTIONS]",
    "",
    "Options:",
    "  -t, --tasks <TASKS>                Number of tasks to submit [default: 1000]",
    "  -p, --payload-size <PAYLOAD_SIZE>  Size in bytes of each task's input [default: 10000]",
    "      --threads <THREADS>            Engine executor threads. Defaults to the engine's own " ++
      "default",
    "  -h, --help                         Print help"]

end TaskRelay.Bench
