import TestCatalog.Text.Basic

/-!
# Limits

The resource limits of the development profile. They are fixed when the library is built.
-/

namespace TestCatalog.Limits

/-- Bytes of the largest file that is read. -/
def maxFileSize : Nat := 10000000

/-- A file of more bytes counts as large. -/
def largeFileThreshold : Nat := 1000000

/-- Lines of the longest file that is read. -/
def maxLines : Nat := 200000

/-- Test cases that one run may add or update. -/
def maxCases : Nat := 30

/-- Steps beyond which a test case draws a warning. -/
def maxSteps : Nat := 500

/-- Worker threads that a batch uses by default at most. -/
def maxThreads : Nat := 8

/-- Files that one batch may hold. -/
def maxFiles : Nat := 10000

/-- Events that a memory log keeps. -/
def logBuffer : Nat := 10000

/-- Events that the collector keeps for one file. -/
def eventsPerFile : Nat := 1000

/-- Bytes of the longest event message that is kept whole. -/
def messageBytes : Nat := 4096

/-- Where the limits come from. -/
def source : Text := "Generated from config/development.toml"

/-- Whether the log limits fit together. -/
def consistent : Bool :=
  100 ≤ logBuffer && eventsPerFile ≤ logBuffer

end TestCatalog.Limits
