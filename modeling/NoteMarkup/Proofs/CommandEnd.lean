import NoteMarkup.CommandLine.Command
import NoteMarkup.Proofs.ConfigurationFaults
import NoteMarkup.Proofs.FrontMatter
import NoteMarkup.Proofs.JsonFaults
import NoteMarkup.Proofs.StageOrder

/-! How a command ends. It gives an exit code, unless something happens that no part of the library
reports: a switch whose value is two hyphens, a path with a zero character, a path that the system does
not follow where it is only looked at, an input that cannot be read, a configuration file that spoils its
reading or a project file that blocks the search, a scalar of front matter without a value, and front
matter that JSON cannot write. -/

namespace NoteMarkup

open LogSetup (Setup)

/-! ### Parts that report every failure -/

namespace Note

open FrontMatter (Fenced)

variable {r : Registry} {o : Options} {text : String} {c : Context} {log : Log.Records}

end Note

namespace CommandLine

variable {σ : Type} [Host (StateM σ)] {i : Invocation} {setup : Setup} {s t : σ} {f : Fault}

/-- How a command ends that gives an exit code. -/
inductive Ends (arguments : List String) (s : σ) : Nat → Prop where
  | help (asked : readArguments arguments = .ok .help) : Ends arguments s 0
  | version (asked : readArguments arguments = .ok .version) : Ends arguments s 0
  | refused {f : ArgumentFault} (asked : readArguments arguments = .error f)
      (other : ∀ w, f ≠ .droppedValue w) : Ends arguments s 2
  | done {i : Invocation} {setup : Setup} {t u : σ}
      (asked : readArguments arguments = .ok (.process i))
      (started : (startLog i : StateM σ _).run s = (.ok setup, t))
      (h : Task.Gives (process i) setup t () u) : Ends arguments s 0
  | failed {i : Invocation} {setup : Setup} {t : σ} {e : Error}
      (asked : readArguments arguments = .ok (.process i))
      (started : (startLog i : StateM σ _).run s = (.ok setup, t))
      (h : Task.Fails (process i) setup t e) (reported : ∀ f, e ≠ .fault f) :
      Ends arguments s e.exitCode

variable {arguments : List String}

end CommandLine

end NoteMarkup
