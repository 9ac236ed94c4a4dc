import UsbFloppy.Storage.Scanner

/-! The endpoints post_mount, post_eject and post_readonly. Each runs on the event loop up to
the sleep of a mount; between two such pieces anything else may run: another request, a
rescan of the library, a command of the host, an image that comes or goes. -/

namespace UsbFloppy.Web
open Files Kernel Gadget Storage

/-- Why a request fails: an HTTPException of its handler, or an exception it lets through. -/
inductive ApiError
  /-- "set not found: {name}" -/
  | setNotFound (name : Text)
  /-- "disk not found: {filename}" -/
  | diskNotFound (filename : Text)
  /-- The text of the DiskTooLargeError. -/
  | diskTooLarge (disk : Image) (size : ℕ)
  /-- "remount failed: {exc}" -/
  | remountFailed (exc : MountError)
  | uncaught
  deriving DecidableEq

def ApiError.statusCode : ApiError → ℕ
  | .setNotFound _ => 404
  | .diskNotFound _ => 404
  | .diskTooLarge _ _ => 400
  | .remountFailed _ => 500
  | .uncaught => 500

inductive Response
  | mounted (image : Option MountedImage)
  | readOnly (set : Text) (ro : Bool)
  | error (e : ApiError)
  deriving DecidableEq

/-- A request that sleeps in a mount; `request` is the number of a readonly request. -/
structure Asleep where
  call : MountCall
  backing : Image
  second : WriteFaults
  request : Option ℕ

/-- The latest readonly request of a set that reached its marker file. -/
structure ReadOnlyRequest where
  id : ℕ
  ro : Bool
  returned : Bool
  deriving DecidableEq

/-- `sets` is the library's snapshot. Not in the code are `attachedBy`, the mount that
attached the LUN, and the readonly requests: their number and the latest of each set. -/
structure ApiState where
  world : World
  sets : List FloppySet
  asleep : List Asleep
  attachedBy : Option MountCall
  requests : ℕ
  latest : Text → Option ReadOnlyRequest
  response : Option Response

/-- `_set_by_name`. -/
def setByName (sets : List FloppySet) (name : Text) : Option FloppySet :=
  sets.find? fun s => s.name = name

/-- `_disk_in_set`. -/
def diskInSet (s : FloppySet) (filename : Text) : Option Image :=
  s.disks.find? fun d => d.1.name = filename

def ApiState.answer (s : ApiState) (r : Response) : ApiState := { s with response := some r }

/-- A mount returned an image to its request. -/
def ApiState.mounted (s : ApiState) (c : MountCall) (image : MountedImage) :
    Option ℕ → ApiState
  | none => { s with attachedBy := some c, response := some (.mounted (some image)) }
  | some id =>
    { s with
      attachedBy := some c
      latest := Function.update s.latest c.floppySet.name <|
        (s.latest c.floppySet.name).map fun l => { l with returned := l.returned || l.id = id }
      response := some (.readOnly c.floppySet.name c.floppySet.readOnly) }

/-- A mount raised an exception to its request. -/
def ApiState.raised (s : ApiState) (c : MountCall) (e : MountError) : Option ℕ → ApiState
  | none =>
    s.answer (.error (match e with
      | .diskTooLarge disk size => .diskTooLarge disk size
      | _ => .uncaught))
  | some id =>
    { s with
      latest := Function.update s.latest c.floppySet.name <|
        (s.latest c.floppySet.name).filter fun l => l.id ≠ id
      response := some (.error (.remountFailed e)) }

/-- A request goes on after a piece of its mount. -/
def ApiState.proceed (s : ApiState) (c : MountCall) (second : WriteFaults) (request : Option ℕ) :
    World × Progress → ApiState
  | (w, .raised e) => { s with world := w }.raised c e request
  | (w, .returned image) => { s with world := w }.mounted c image request
  | (w, .sleeping backing) =>
    { s with
      world := w
      asleep := s.asleep ++ [⟨c, backing, second, request⟩]
      response := none }

def startMount (g : GadgetController) (s : ApiState) (c : MountCall) (a : MountFaults)
    (request : Option ℕ) : ApiState :=
  s.proceed c a.second request (g.mountStart s.world c a)

/-- A request that sleeps wakes up. -/
def resumeMount (g : GadgetController) (s : ApiState) (i : ℕ) : ApiState :=
  match s.asleep[i]? with
  | none => s
  | some x =>
    { s with asleep := s.asleep.eraseIdx i }.proceed x.call x.second x.request
      (g.mountFinish s.world x.call x.backing x.second)

def postMount (g : GadgetController) (s : ApiState) (set disk : Text) (session : Bool)
    (a : MountFaults) : ApiState :=
  match setByName s.sets set with
  | none => s.answer (.error (.setNotFound set))
  | some fset =>
    match diskInSet fset disk with
    | none => s.answer (.error (.diskNotFound disk))
    | some d => startMount g s ⟨fset, d, session⟩ a none

def postEject (g : GadgetController) (s : ApiState) (fault : Option Errno) : ApiState :=
  match g.eject s.world fault with
  | (w, true) => { s with world := w }.answer (.mounted none)
  | (w, false) => { s with world := w }.answer (.error .uncaught)

/-- Where `open` creates a file that does not exist. -/
def linkEnd : ℕ → Fs → Path → Option Path
  | 0, _, _ => none
  | n + 1, fs, p =>
    match fs.lookup p with
    | some (.link target) => linkEnd n fs target
    | _ => some p

/-- `write_text("")`. -/
def writeEmpty (fs : Fs) (p : Path) : Option Fs :=
  match linkEnd (maxSymlinks + 1) fs p with
  | none => none
  | some q =>
    match fs.lookup q with
    | some (.file f) =>
      if f.writable then some (fs.insert q (.file { f with contents := .ofList [] })) else none
    | _ => some (fs.insert q (.file ⟨.ofList [], true⟩))

/-- The marker is written or removed; none is an OSError. -/
def setMarker (fs : Fs) (p : Path) (ro fault : Bool) : Option Fs :=
  if ro then if fault then none else writeEmpty fs p
  else if pathExists fs p then if fault then none else some (fs.erase p)
  else some fs

/-- The disk that `post_readonly` mounts once more. -/
def remountDisk (w : World) (fset : FloppySet) : Option Image :=
  match w.current with
  | none => none
  | some m =>
    if m.setName = fset.name ∧ m.isSession = false then diskInSet fset m.diskFilename else none

def postReadonly (g : GadgetController) (s : ApiState) (set : Text) (ro fault : Bool)
    (a : MountFaults) : ApiState :=
  match setByName s.sets set with
  | none => s.answer (.error (.setNotFound set))
  | some fset =>
    match setMarker s.world.fs (marker fset.path) ro fault with
    | none => s.answer (.error .uncaught)
    | some fs =>
      let s' := { s with world := { s.world with fs := fs }, requests := s.requests + 1 }
      match remountDisk s.world fset with
      | none =>
        { s' with
          latest := Function.update s.latest set (some ⟨s.requests, ro, true⟩)
          response := some (.readOnly set ro) }
      | some d =>
        let updatedSet := { fset with readOnly := ro }
        startMount g
          { s' with latest := Function.update s.latest set (some ⟨s.requests, ro, false⟩) }
          ⟨updatedSet, d, false⟩ a (some s.requests)

/-- What may happen between two pieces of the handlers. The faults tell which operations on
files and attributes meet an error. -/
inductive ApiEvent
  | postMount (set disk : Text) (session : Bool) (a : MountFaults)
  | postEject (fault : Option Errno)
  | postReadonly (set : Text) (ro fault : Bool) (a : MountFaults)
  | resume (i : ℕ)
  | rescan
  | host (cmd : HostCommand)
  | addImage (p : Image) (node : Node)
  | deleteImage (p : Image)

def apiStep (g : GadgetController) (root : Path) (s : ApiState) : ApiEvent → ApiState
  | .postMount set disk session a => postMount g s set disk session a
  | .postEject fault => postEject g s fault
  | .postReadonly set ro fault a => postReadonly g s set ro fault a
  | .resume i => resumeMount g s i
  | .rescan => { s with sets := scan s.world.fs root }
  | .host cmd => { s with world := { s.world with lun := hostDoor s.world.lun cmd } }
  | .addImage p node => { s with world := { s.world with fs := s.world.fs.insert p.1 node } }
  | .deleteImage p => { s with world := { s.world with fs := s.world.fs.erase p.1 } }

/-- The service has scanned its library and serves no request yet. -/
def ApiState.init (root : Path) (w : World) : ApiState :=
  ⟨w, scan w.fs root, [], none, 0, fun _ => none, none⟩

theorem setByName_some {sets : List FloppySet} {name : Text} {fset : FloppySet}
    (h : setByName sets name = some fset) : fset ∈ sets ∧ fset.name = name :=
  ⟨List.mem_of_find?_eq_some h, by simpa using List.find?_some h⟩

theorem diskInSet_some {fset : FloppySet} {filename : Text} {d : Image}
    (h : diskInSet fset filename = some d) : d ∈ fset.disks ∧ d.1.name = filename :=
  ⟨List.mem_of_find?_eq_some h, by simpa using List.find?_some h⟩

end UsbFloppy.Web
