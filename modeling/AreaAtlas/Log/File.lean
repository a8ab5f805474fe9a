import AreaAtlas.Files.Store

/-!
# Log files

A log file grows line by line and stays open meanwhile.  A line that would make it too large comes into a
fresh file: before that, the file is put aside under a number, what was put aside before moves on to the
next number, and of more files than are kept the oldest one is lost.  Nothing is put aside if that fails.
-/

namespace AreaAtlas.Log

/-- The name of the log file. -/
def fileName : String := "logic_map.log"

/-- Whether a place is that of a log file. -/
def isLogFile (place : Files.Location) : Bool :=
  place.getLast? == some fileName

/-- A log file: where it is, the size in bytes that it stays below, and how many files are kept aside.
With size 0 it has no limit. -/
structure File where
  place : Files.Location
  maxSize : Nat
  backups : Nat
deriving DecidableEq, Repr

/-- The size in bytes that a log file of the program stays below. -/
def maxFileSize : Nat := 5 * 1024 * 1024

/-- The number of log files of the program that are kept aside. -/
def backupCount : Nat := 5

namespace File

/-- The log file of the program at a place. -/
def ofPlace (place : Files.Location) : File :=
  ⟨place, maxFileSize, backupCount⟩

/-- The place under a number, which stands behind the name.  The file itself has number 0. -/
def numbered (log : File) : Nat → Files.Location
  | 0 => log.place
  | n + 1 => log.place.dropLast ++ [log.place.getLast?.getD "" ++ "." ++ toString (n + 1)]

/-- Whether a file with these bytes has no room for a line.  Characters of the line are counted as bytes. -/
def isFull (log : File) (bytes : List UInt8) (line : String) : Bool :=
  0 < log.maxSize && log.maxSize ≤ bytes.length + line.length

/-- Move what is under the numbers below this one on by one, the highest first. -/
def shift (log : File) (store : Files.Store) : Nat → Option Files.Store
  | 0 => some store
  | n + 1 =>
    match store.moveOver (log.numbered n) (log.numbered (n + 1)) with
    | some store => log.shift store n
    | none => none

/-- Put the file aside and begin a fresh one. -/
def putAside (log : File) (store : Files.Store) : Option Files.Store :=
  (log.shift store log.backups).map (·.openFile log.place)

end File

end AreaAtlas.Log
