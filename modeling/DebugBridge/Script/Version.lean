/-!
The two major versions of the script language.  They differ in how strings are quoted and in where
relative includes start.
-/

namespace DebugBridge

/-- A major version of the language. -/
inductive Version where
  /-- Version 1: a quote inside a string is written twice. -/
  | v1
  /-- Version 2: strings have two kinds of quotes and backtick escapes. -/
  | v2
  deriving DecidableEq, Repr, Inhabited

/-- The version with a major number; every number but 1 means version 2. -/
def Version.ofMajor (major : Nat) : Version := if major == 1 then .v1 else .v2

end DebugBridge
