namespace FormatFuzz

/-- A class of errors: its own name, the name with the place that it comes from, by which classes are
told apart, and the names of all wider classes that it belongs to. -/
structure ErrorClass where
  name : String
  fullName : String := name
  wider : List String := []
deriving DecidableEq, Repr

namespace ErrorClass

def isA (c : ErrorClass) (fullName : String) : Bool :=
  c.fullName == fullName || c.wider.contains fullName

/-- Whether errors of a class are failures. The others end the run. -/
def isFailure (c : ErrorClass) : Bool := c.isA "Exception"

def nextWider : List (String × String) := [
  ("BaseExceptionGroup", "BaseException"), ("Exception", "BaseException"),
  ("GeneratorExit", "BaseException"), ("KeyboardInterrupt", "BaseException"),
  ("SystemExit", "BaseException"), ("ArithmeticError", "Exception"),
  ("FloatingPointError", "ArithmeticError"), ("OverflowError", "ArithmeticError"),
  ("ZeroDivisionError", "ArithmeticError"), ("AssertionError", "Exception"),
  ("AttributeError", "Exception"), ("BufferError", "Exception"), ("EOFError", "Exception"),
  ("ImportError", "Exception"), ("ModuleNotFoundError", "ImportError"),
  ("LookupError", "Exception"), ("IndexError", "LookupError"), ("KeyError", "LookupError"),
  ("MemoryError", "Exception"), ("NameError", "Exception"), ("UnboundLocalError", "NameError"),
  ("OSError", "Exception"), ("BlockingIOError", "OSError"), ("ChildProcessError", "OSError"),
  ("ConnectionError", "OSError"), ("BrokenPipeError", "ConnectionError"),
  ("ConnectionAbortedError", "ConnectionError"), ("ConnectionRefusedError", "ConnectionError"),
  ("ConnectionResetError", "ConnectionError"), ("FileExistsError", "OSError"),
  ("FileNotFoundError", "OSError"), ("InterruptedError", "OSError"),
  ("IsADirectoryError", "OSError"), ("NotADirectoryError", "OSError"),
  ("PermissionError", "OSError"), ("ProcessLookupError", "OSError"), ("TimeoutError", "OSError"),
  ("ReferenceError", "Exception"), ("RuntimeError", "Exception"),
  ("NotImplementedError", "RuntimeError"), ("RecursionError", "RuntimeError"),
  ("StopAsyncIteration", "Exception"), ("StopIteration", "Exception"),
  ("SyntaxError", "Exception"), ("IndentationError", "SyntaxError"),
  ("TabError", "IndentationError"), ("SystemError", "Exception"), ("TypeError", "Exception"),
  ("ValueError", "Exception"), ("UnicodeError", "ValueError"),
  ("UnicodeDecodeError", "UnicodeError"), ("UnicodeEncodeError", "UnicodeError"),
  ("UnicodeTranslateError", "UnicodeError"), ("Warning", "Exception"),
  ("BytesWarning", "Warning"), ("DeprecationWarning", "Warning"), ("EncodingWarning", "Warning"),
  ("FutureWarning", "Warning"), ("ImportWarning", "Warning"),
  ("PendingDeprecationWarning", "Warning"), ("ResourceWarning", "Warning"),
  ("RuntimeWarning", "Warning"), ("SyntaxWarning", "Warning"), ("UnicodeWarning", "Warning"),
  ("UserWarning", "Warning"), ("black.parsing.InvalidInput", "ValueError"),
  ("idemfuzz.errors.IdemfuzzError", "Exception"),
  ("idemfuzz.errors.FormatterError", "idemfuzz.errors.IdemfuzzError")]

def homes : List (String × String) :=
  [("FormatterError", "idemfuzz.errors"), ("InvalidInput", "black.parsing")]

def ancestors : Nat → String → List String
  | 0, _ => []
  | n + 1, fullName =>
    match nextWider.lookup fullName with
    | some wider => wider :: ancestors n wider
    | none => []

/-- A known class. None is further than six steps from the widest one. -/
def known (name : String) : ErrorClass :=
  let fullName := match homes.lookup name with
    | some home => home ++ "." ++ name
    | none => name
  ⟨name, fullName, ancestors 6 fullName⟩

def systemClasses : List (Int × String) := [
  (1, "PermissionError"), (2, "FileNotFoundError"), (3, "ProcessLookupError"),
  (4, "InterruptedError"), (10, "ChildProcessError"), (11, "BlockingIOError"),
  (13, "PermissionError"), (17, "FileExistsError"), (20, "NotADirectoryError"),
  (21, "IsADirectoryError"), (32, "BrokenPipeError"), (103, "ConnectionAbortedError"),
  (104, "ConnectionResetError"), (108, "BrokenPipeError"), (110, "TimeoutError"),
  (111, "ConnectionRefusedError"), (114, "BlockingIOError"), (115, "BlockingIOError")]

end ErrorClass

end FormatFuzz
