import CertKeeper.Console.Table
import CertKeeper.Pass
import CertKeeper.Store.Directory

/-!
# The surroundings of commands

Commands print, use a disk and the store in one of its directories, and ask for what authorities
need.
-/

namespace CertKeeper

namespace Shell

/-- What a command may ask of its surroundings. -/
inductive Request where
  /-- Prints a text as it is. -/
  | print (text : String)
  | disk (q : Disk.Request)
  /-- A request to the store in a directory. -/
  | store (s : DirectoryStore) (q : Store.Request)
  | signing (q : Signing.Request)

/-- What the surroundings answer. -/
def Request.Result : Request → Type
  | .print _ => Unit
  | .disk q => Disk.interface.Answer q
  | .store _ q => Store.Answer q
  | .signing q => Signing.Answer q

end Shell

/-- The requests of commands and their answers. -/
def Shell : Interface where
  Question := Shell.Request
  Answer q := q.Result

namespace Shell

variable {α : Type}

/-- Prints a text as it is. -/
def print (text : String) : Action Shell Unit :=
  ExceptT.lift (Program.question (I := Shell) (.print text))

/-- An action on the disk. -/
def onDisk (a : DirectoryStore.DiskAction α) : Action Shell α :=
  a.expand fun q => Program.question (I := Shell) (.disk q)

/-- An action on the store in a directory. -/
def onStore (s : DirectoryStore) (a : Action Store α) : Action Shell α :=
  a.expand fun q => Program.question (I := Shell) (.store s q)

/-- An action of an authority. -/
def onSigning (a : Action Signing α) : Action Shell α :=
  a.expand fun q => Program.question (I := Shell) (.signing q)

/-- A request of a pass, to the store in a directory. -/
def askWorld (s : DirectoryStore) : (q : World.Question) → Program Shell (World.Answer q)
  | .inl q => Program.question (I := Shell) (.store s q)
  | .inr q => Program.question (I := Shell) (.signing q)

/-- An action of a pass on the store in a directory. -/
def onWorld (s : DirectoryStore) (a : Action World α) : Action Shell α := a.expand (askWorld s)

/-- Prints a marked-up text on a console of a number of cells. -/
def say (console : Nat) (text : String) : Action Shell Unit := do
  print (Console.textOfLines (← Action.ofExcept .markup (Console.linesOfMarkup console text)))

/-- Prints a table on a console of a number of cells. -/
def sayTable (console : Nat) (table : Console.Table) : Action Shell Unit := do
  print (Console.textOfLines (← Action.ofExcept .markup (table.lines console)))

end Shell

end CertKeeper
