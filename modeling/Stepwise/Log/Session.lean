import Stepwise.Folder
import Stepwise.Log

/-!
# Installing a logger

A session starts without a logger. The first request that succeeds installs one for good: it writes
messages to the terminal, and to a file in the working folder if a file was asked for. The file is made
before the logger is installed.
-/

namespace Stepwise.Log

/-- Which messages are written: none, or those of a level and of more important ones. -/
abbrev Verbosity :=
  Option Level

/-- The name of a verbosity. -/
def Verbosity.name : Verbosity → String
  | none => "OFF"
  | some level => level.name

/-- Why a logger is not installed. -/
inductive LoggerError where
  | unknownLevel (text : String)
  | file (error : FileError)
  | alreadyInstalled
  deriving DecidableEq

/-- The text of the error. -/
def LoggerError.message : LoggerError → String
  | unknownLevel text =>
    "loglevel must be debug, info, warn, error or off, got '" ++ text ++ "'"
  | file error => "could not create log file: " ++ error.message
  | alreadyInstalled =>
    "attempted to set a logger after the logging system was already initialized"

/-- The verbosity that a word asks for. -/
def Verbosity.ofText (text : String) : Except LoggerError Verbosity :=
  if text = "debug" then .ok (some .debug)
  else if text = "info" then .ok (some .info)
  else if text = "warn" then .ok (some .warn)
  else if text = "error" then .ok (some .error)
  else if text = "off" ∨ text = "none" then .ok none
  else .error (.unknownLevel text)

/-- A request for a logger. -/
structure Request where
  /-- The word for the verbosity. Without a word it is `info`. -/
  level : Option String
  toFile : Bool
  /-- The name of the log file, which tells the time of the request. -/
  fileName : String
  deriving DecidableEq

/-- A logger that has been installed. -/
structure Logger where
  level : Level
  file : Option String
  deriving DecidableEq

/-- A session: its working folder, its logger, and the messages on its terminal. -/
structure Session where
  folder : Folder
  logger : Option Logger
  terminal : List Message
  deriving DecidableEq

namespace Session

/-- A session that has just begun in a folder. -/
def start (folder : Folder) : Session where
  folder := folder
  logger := none
  terminal := []

/-- A message as a line of a terminal or a file. -/
def line (message : Message) : String :=
  "[" ++ message.level.name ++ "] " ++ message.text

/-- Writes a message where the logger says, if it is important enough. -/
def write (session : Session) (message : Message) : Session :=
  match session.logger with
  | none => session
  | some logger =>
    if message.level.rank ≤ logger.level.rank then
      let folder := match logger.file with
        | none => session.folder
        | some name => session.folder.append name (line message ++ "\n")
      { session with folder, terminal := session.terminal ++ [message] }
    else session

/-- Installs a logger of a level, whose file has been made already. -/
def install (session : Session) (level : Level) (file : Option String) :
    Except LoggerError Unit × Session :=
  if session.logger.isSome then (.error .alreadyInstalled, session)
  else
    let session := { session with logger := some { level, file } }
    (.ok (), session.write
      { level := .info, text := "Program started with loglevel: " ++ level.name })

/-- Answers a request for a logger. -/
def request (session : Session) (request : Request) : Except LoggerError Unit × Session :=
  match Verbosity.ofText (request.level.getD "info") with
  | .error error => (.error error, session)
  | .ok none => (.ok (), session)
  | .ok (some level) =>
    if request.toFile then
      match session.folder.put request.fileName "" with
      | .error error => (.error (.file error), session)
      | .ok folder => { session with folder }.install level (some request.fileName)
    else session.install level none

/-- Answers some requests, one after the other. -/
def requests (session : Session) : List Request → List (Except LoggerError Unit) × Session
  | [] => ([], session)
  | first :: rest =>
    let (answer, session) := session.request first
    let (answers, session) := session.requests rest
    (answer :: answers, session)

end Session

end Stepwise.Log
