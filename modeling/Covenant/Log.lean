/-
Log records and the channel that writes them. Records of the loggers at or below
the root `ctogen` are written, one line each, if their level reaches that of the
channel. A channel gets its format when it is first configured; later calls only
set its level.
-/
namespace Covenant

/-- A record: how serious it is, who wrote it and what it says. -/
structure LogRecord where
  level : Int
  logger : String
  message : String
deriving DecidableEq, Repr

namespace LogLevel

def debug : Int := 10
def info : Int := 20
def warning : Int := 30
def error : Int := 40
def critical : Int := 50

/-- The level of a channel that has not been given one, which is written 0. -/
def inherited : Int := warning

/-- How a level is written. -/
def name (level : Int) : String :=
  if level = debug then "DEBUG"
  else if level = info then "INFO"
  else if level = warning then "WARNING"
  else if level = error then "ERROR"
  else if level = critical then "CRITICAL"
  else "Level " ++ toString level

end LogLevel

/-! ## Formats -/

/-- A part of the format of a line. -/
inductive LogPart where
  | text (c : Char)
  | level
  | logger
  | message
deriving DecidableEq, Repr

/-- The parts of a format, in which `%(levelname)s`, `%(name)s` and `%(message)s` stand for those
of a record and a doubled percent sign for a single one. -/
def logParts (skip : Nat) : List Char → List LogPart
  | [] => []
  | c :: cs =>
    if skip ≠ 0 then logParts (skip - 1) cs
    else if "%(levelname)s".toList.isPrefixOf (c :: cs) then .level :: logParts 12 cs
    else if "%(name)s".toList.isPrefixOf (c :: cs) then .logger :: logParts 7 cs
    else if "%(message)s".toList.isPrefixOf (c :: cs) then .message :: logParts 10 cs
    else if "%%".toList.isPrefixOf (c :: cs) then .text '%' :: logParts 1 cs
    else .text c :: logParts 0 cs

/-- The text of a part. -/
def LogPart.write (r : LogRecord) : LogPart → String
  | text c => c.toString
  | level => LogLevel.name r.level
  | logger => r.logger
  | message => r.message

/-- The format of a channel that is given none. -/
def defaultLogFormat : String := "[%(levelname)s] %(name)s: %(message)s"

/-- The line of a record in a format. -/
def LogRecord.line (format : String) (r : LogRecord) : String :=
  String.join ((logParts 0 format.toList).map (·.write r)) ++ "\n"

/-! ## Channels -/

/-- The name of the root logger. -/
def rootLogger : String := "ctogen"

/-- Where records go: the format once there is one, the level, and what has been written. -/
structure LogChannel where
  format? : Option String := none
  level : Int := 0
  written : String := ""
deriving DecidableEq, Repr

namespace LogChannel

/-- Sets the level, and the format if there is none yet. -/
def configure (channel : LogChannel) (level : Int) (format : String) : LogChannel :=
  { channel with format? := channel.format?.or (some format), level }

/-- Whether a record belongs to the channel and is serious enough. -/
def accepts (channel : LogChannel) (r : LogRecord) : Bool :=
  (r.logger = rootLogger || r.logger.startsWith (rootLogger ++ "."))
    && 0 < r.level
    && (if channel.level = 0 then LogLevel.inherited else channel.level) ≤ r.level

/-- Writes a record that the channel accepts. -/
def write (channel : LogChannel) (r : LogRecord) : LogChannel :=
  match channel.format? with
  | some format =>
    if channel.accepts r then { channel with written := channel.written ++ r.line format }
    else channel
  | none => channel

end LogChannel

end Covenant
