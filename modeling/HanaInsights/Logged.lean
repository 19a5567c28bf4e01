set_option autoImplicit false

namespace HanaInsights

inductive Level where
  | debug | info | warn | error
  deriving DecidableEq, Repr

structure LogLine where
  level : Level
  text : String
  deriving DecidableEq, Repr

inductive Signal where
  | terminate
  | interrupt
  deriving DecidableEq, Repr

structure Logged (α : Type) where
  value : α
  log : List LogLine
  signals : List Signal

namespace Logged

variable {α β : Type}

instance : Monad Logged where
  pure a := ⟨a, [], []⟩
  bind x f := ⟨(f x.value).value, x.log ++ (f x.value).log, x.signals ++ (f x.value).signals⟩

@[simp] theorem value_pure (a : α) : (pure a : Logged α).value = a := rfl

@[simp] theorem log_pure (a : α) : (pure a : Logged α).log = [] := rfl

@[simp] theorem value_bind (x : Logged α) (f : α → Logged β) :
    (x >>= f).value = (f x.value).value := rfl

@[simp] theorem log_bind (x : Logged α) (f : α → Logged β) :
    (x >>= f).log = x.log ++ (f x.value).log := rfl

@[simp] theorem signals_pure (a : α) : (pure a : Logged α).signals = [] := rfl

@[simp] theorem signals_bind (x : Logged α) (f : α → Logged β) :
    (x >>= f).signals = x.signals ++ (f x.value).signals := rfl

def withLog (a : α) (lines : List LogLine) : Logged α := ⟨a, lines, []⟩

def write (level : Level) (text : String) : Logged Unit := withLog () [⟨level, text⟩]

def writeAll (lines : List LogLine) : Logged Unit := withLog () lines

end Logged

def debugLine (text : String) : LogLine := ⟨.debug, text⟩
def infoLine (text : String) : LogLine := ⟨.info, text⟩
def warnLine (text : String) : LogLine := ⟨.warn, text⟩
def errorLine (text : String) : LogLine := ⟨.error, text⟩

end HanaInsights
