/-
  Opening the store that the settings name.

  For a database file the directory it is in is made first.  A database, new
  or not, is brought up to the current scheme before it is used.  The versions
  of the scheme are set up through one connection each; a database that every
  connection has for itself is then never complete, unless there is to be one
  connection only.
-/
import JobQueue.Daemon.Backend
import JobQueue.Daemon.FileName
import JobQueue.Daemon.Files
import JobQueue.Daemon.ServerAddress
import JobQueue.Store.Any
import JobQueue.Store.Migration

namespace JobQueue

/-- A database server with a socket. -/
structure Server where
  /-- The directory of the socket. -/
  directory : String
  port : Nat
  database : Database

/-- What the daemon finds around it. -/
structure Host where
  home : Option String
  workingDirectory : Place
  environment : Variables := fun _ => none
  files : Files := {}
  /-- The databases in files; any other file is an empty database. -/
  databases : Keyed Place Database := []
  server : Option Server := none

/-- Why the store could not be opened. -/
inductive OpenFault where
  /-- The directory of the database file could not be made. -/
  | directory (path : String) (why : FilesFault)
  | connection (engine : Engine) (why : EngineFault)
  | migration (engine : Engine) (why : EngineFault)
  deriving DecidableEq, Repr

namespace OpenFault

/-- What could not be done. -/
def message : OpenFault → String
  | directory path _ => "Cannot create " ++ path
  | connection _ _ => "DB pool creation failed"
  | migration _ _ => "Migration failed"

/-- The error behind it, if it is one of the queue's. -/
def cause? : OpenFault → Option Error
  | directory _ _ => none
  | connection e why | migration e why => some (.database (.engine e why))

/-- What is behind it, in words. -/
def causeText : OpenFault → String
  | directory _ why => why.message
  | connection e why | migration e why => (Error.database (.engine e why)).message

end OpenFault

/-- An open store, and the file it is kept in if it is in a file. -/
structure Opened where
  store : AnyStore
  place : Option Place
  deriving DecidableEq, Repr

namespace Host

/-! ## Database files -/

/-- A file that cannot be opened. -/
def cannotOpen : EngineFault := .reported (some "14") "unable to open database file"

/-- A file that cannot be read. -/
def cannotRead : EngineFault := .reported (some "266") "disk I/O error"

/-- A database as it was opened. -/
structure Found where
  database : Database := {}
  /-- The file it is in. -/
  place : Option Place := none
  /-- Do all connections find the same database? -/
  isCommon : Bool := true
  /-- Why nothing can be changed, if so. -/
  refusal : Option EngineFault := none

/-- The greatest length of the path of a database file, in bytes. -/
def longestFilePath : Nat := 504

/-- The room that the names of the files beside a database file need behind its own, in bytes. -/
def besideRoom : Nat := 8

/-- Goes one name further, whether there is something or not. -/
def stepToFile (f : Files) (p : Place) (name : String) : Option Place :=
  if name = "" ∨ name = "." ∨ name = ".." then some (p.step name)
  else if Files.longestName < name.utf8ByteSize ∨ f.isFile p then none
  else some (p.step name)

/-- The place of a database file; dots in its path are taken out before the path is followed. -/
def filePlace? (h : Host) (path : String) : Option Place :=
  ((Text.split '/' path).foldlM (stepToFile h.files) (.start h.workingDirectory path)).bind
    fun p => if p.isEmpty ∨ longestFilePath < p.path.utf8ByteSize then none else some p

/-- Reads a database file.  An immutable file shows nothing that is still in its log; a file with
    a log cannot be read without one. -/
def readFile (h : Host) (n : FileName) (place : Place) : Except EngineFault Found :=
  let refusal : Option EngineFault := if n.isWritable then none else some .readOnly
  if n.immutable then .ok { refusal := refusal }
  else match h.databases.get? place with
    | some d =>
      if n.canLogAhead then .ok { database := d, place := some place, refusal := refusal }
      else .error cannotOpen
    | none =>
      let hasRoom := (place.getLastD "").utf8ByteSize + besideRoom ≤ Files.longestName
      let refusal := refusal <|> if hasRoom then none else some cannotOpen
      match refusal with
      | some why =>
        if n.canLogAhead then .error why
        else .ok { place := some place, refusal := some why }
      | none => .ok { place := some place }

/-- Opens a database file, and makes it if it does not exist. -/
def openFile (h : Host) (n : FileName) : Except EngineFault Found × Files :=
  match h.filePlace? n.path with
  | none => (.error cannotOpen, h.files)
  | some place =>
    if h.files.isDirectory place then
      (.error (if n.access = .readOnly then cannotRead else cannotOpen), h.files)
    else if h.files.isFile place then (h.readFile n place, h.files)
    else if n.access = .create ∧ h.files.isDirectory place.dropLast then
      (h.readFile n place, h.files.makeFile place)
    else (.error cannotOpen, h.files)

/-- Opens a database under a name. -/
def openNamed (h : Host) (n : FileName) : Except EngineFault Found × Files :=
  let refusal : Option EngineFault := if n.isWritable then none else some .readOnly
  match n.keeping with
  | .file => h.openFile n
  | .shared => (.ok { refusal := refusal }, h.files)
  | .connection => (.ok { isCommon := false, refusal := refusal }, h.files)

/-- Makes the directory of a database file, if the URL names a file. -/
def makeParent (h : Host) (url : String) : Except OpenFault Unit × Files :=
  match (Backend.sqliteFile? url).bind Path.parent? with
  | none => (.ok (), h.files)
  | some path =>
    match h.files.makeDirectory h.workingDirectory path with
    | (.ok (), files) => (.ok (), files)
    | (.error why, files) => (.error (.directory path why), files)

/-- Brings the scheme of a database up to date.  With `isSingle` there is one connection. -/
def setUp (isSingle : Bool) (found : Found) : Except EngineFault Unit × Database :=
  match found.refusal with
  | some why => (if found.database.isBehind then .error why else .ok (), found.database)
  | none =>
    if found.isCommon ∨ isSingle then found.database.migrate .sqlite
    else (Migration.runApart .sqlite, found.database)

/-- Opens a database file. -/
def openSqlite (h : Host) (url : String) : Except OpenFault Opened × Host :=
  match h.makeParent url with
  | (.error f, files) => (.error f, { h with files := files })
  | (.ok (), files) =>
    let h := { h with files := files }
    match (FileAddress.ofUrl url).bind FileName.ofAddress with
    | .error why => (.error (.connection .sqlite why), h)
    | .ok n =>
      match h.openNamed n with
      | (.error why, files) => (.error (.connection .sqlite why), { h with files := files })
      | (.ok found, files) =>
        let h := { h with files := files }
        match setUp (Backend.isMemoryUrl url) found with
        | (.error why, _) => (.error (.migration .sqlite why), h)
        | (.ok (), d) =>
          let c : Connection := { database := d, isReadOnly := found.refusal.isSome }
          (.ok ⟨.sqlite c, found.place⟩, h)

/-! ## Database servers -/

/-- The greatest length of the path to a socket, in bytes. -/
def longestSocketPath : Nat := 107

/-- Why the path to a socket leads nowhere. -/
def noSocket (h : Host) (directory : String) : EngineFault :=
  match (Files.namesOf directory).bind (h.files.follow []) with
  | .ok _ => .io FilesFault.noEntry.message
  | .error why => .io why.message

/-- Connects to a database server.  Hosts do not answer. -/
def connect (h : Host) (a : ServerAddress) : Except EngineFault Database :=
  match a.directory? with
  | none => .error .timedOut
  | some directory =>
    let path := directory ++ "/" ++ a.socketName
    if path.toList.contains '\x00' then
      .error (.io "paths must not contain interior null bytes")
    else if longestSocketPath < path.utf8ByteSize then
      .error (.io "path must be shorter than SUN_LEN")
    else match h.server with
      | none => .error (h.noSocket directory)
      | some s =>
        if s.directory ≠ directory ∨ s.port ≠ a.port then .error (h.noSocket directory)
        else if a.protection.isDemanded then .error (.encryption "server does not support TLS")
        else .ok s.database

/-- Opens a database on a server. -/
def openPostgres (h : Host) (url : String) : Except OpenFault Opened × Host :=
  match (ServerAddress.ofUrl h.environment url).bind h.connect with
  | .error why => (.error (.connection .postgres why), h)
  | .ok d =>
    match d.migrate .postgres with
    | (.error why, _) => (.error (.migration .postgres why), h)
    | (.ok (), d) => (.ok ⟨.postgres { database := d }, none⟩, h)

/-! ## All stores -/

/-- Opens the store that the settings name. -/
def openStore (h : Host) (s : Settings) : Except OpenFault Opened × Host :=
  match Backend.ofUrl h.home s.databaseUrl with
  | .memory => (.ok ⟨.volatile .empty, none⟩, h)
  | .sqlite url => h.openSqlite url
  | .postgres url => h.openPostgres url

/-- Leaves a store behind. -/
def keep (h : Host) (o : Opened) : Host :=
  match o.store, o.place with
  | .sqlite c, some place => { h with databases := h.databases.put place c.database }
  | .postgres c, _ => { h with server := h.server.map fun s => { s with database := c.database } }
  | _, _ => h

end Host

end JobQueue
