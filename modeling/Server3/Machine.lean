import Server3.Resource

/-! `Cache::get` as a state machine. Any number of gets run at once over one
`CacheStorage`; between two steps of one of them the others may take any steps.
A step is one access to shared state, or the end of one wait for the outside. -/

namespace Server3.Machine

open Clock Routes Upstream Resource Recency
open CapacityPool (CacheCapacityPool CacheCapacityReservation)

abbrev TaskId := Nat
abbrev CellId := Nat

/-- An `Arc<OnceCell<Arc<CachedResource>>>`. At most one initialiser holds the
permit; it is given back when the initialiser fails or is cancelled. A cell is
freed with its resource when its last owner lets go of it. -/
inductive Cell where
  | empty
  | initializing (task : TaskId)
  | filled (resource : CachedResource)
  | freed
  deriving DecidableEq

/-- The key a cell was allocated for is kept for the proofs; the code has only
the entry of the map. -/
structure Slot where
  key : CachedResourceKey
  cell : Cell
  deriving DecidableEq

structure Fetched where
  headers : UpstreamResourceHeaders
  file : File
  deriving DecidableEq

/-- Where a get is. The `locked` flag says whether `cached_resources_lock` holds
the guard of the map. -/
inductive Pc where
  | neverFetch
  | lookupLock
  | lookup
  | joining (cell : CellId)
  | fetching (cell : CellId)
  | storing (cell : CellId) (resource : UpstreamResource)
  | reserving (cell : CellId) (fetched : Fetched) (locked : Bool)
  | evictLock (cell : CellId) (fetched : Fetched)
  | popping (cell : CellId) (fetched : Fetched)
  | evicting (cell : CellId) (fetched : Fetched) (victim : CellId)
  | reservingUpTo (cell : CellId) (fetched : Fetched)
  | granted (cell : CellId) (fetched : Fetched) (reservation : CacheCapacityReservation)
      (locked : Bool)
  | initialized (cell : CellId) (resource : CachedResource)
  | cloning (cell : CellId) (resource : CachedResource)
  | finished (result : Except UpstreamError (Option CachedResourceResponse))
  | panicked
  | cancelled

namespace Pc

/-- The cell the get took from the map. -/
def own : Pc → Option CellId
  | joining cell | fetching cell | storing cell _ | reserving cell _ _ | evictLock cell _
  | popping cell _ | evicting cell _ _ | reservingUpTo cell _ | granted cell _ _ _
  | initialized cell _ | cloning cell _ => some cell
  | _ => none

/-- The evicted cell that the reservation loop has in hand. -/
def victim : Pc → Option CellId
  | evicting _ _ victim => some victim
  | _ => none

/-- The cell whose permit the get holds. -/
def initializes : Pc → Option CellId
  | fetching cell | storing cell _ | reserving cell _ _ | evictLock cell _ | popping cell _
  | evicting cell _ _ | reservingUpTo cell _ | granted cell _ _ _ => some cell
  | _ => none

def holdsLock : Pc → Bool
  | lookup | popping _ _ | evicting _ _ _ | reservingUpTo _ _ => true
  | reserving _ _ locked | granted _ _ _ locked => locked
  | _ => false

/-- The reservation held between its grant and the cell being filled. -/
def reserved : Pc → Nat
  | granted _ _ reservation _ => reservation.reserved.toNat
  | _ => 0

end Pc

structure Task where
  host : String
  path : String
  now : Instant
  label : String
  expiresAfter : Option Instant
  pc : Pc

def Task.key (task : Task) : CachedResourceKey := ⟨task.host, task.path⟩

def Task.resource (task : Task) (id : TaskId) (fetched : Fetched)
    (reservation : CacheCapacityReservation) (clock : ClockReading) : CachedResource :=
  newResource id task.expiresAfter task.host fetched.headers fetched.file reservation clock

/-- The task's index stands for its `init_id`. -/
structure State where
  pool : CacheCapacityPool
  map : LruCache CachedResourceKey CellId
  lock : Option TaskId
  slots : List Slot
  tasks : List Task
  metrics : Metrics
  poolPanicked : Bool

def initial (capacity : UInt64) (slots : Nat) (positive : 0 < slots) : State where
  pool := ⟨capacity⟩
  map := LruCache.new slots positive
  lock := none
  slots := []
  tasks := []
  metrics := Metrics.zero
  poolPanicked := false

namespace State

def setPc (state : State) (id : TaskId) (task : Task) (pc : Pc) : State :=
  { state with tasks := state.tasks.set id { task with pc := pc } }

def setCell (state : State) (id : CellId) (cell : Cell) : State :=
  { state with slots := state.slots.modify id fun slot => { slot with cell := cell } }

def cellAt (state : State) (id : CellId) : Option Cell := (state.slots[id]?).map Slot.cell

def mapped (state : State) (id : CellId) : Bool :=
  state.map.entries.any fun entry => entry.2 = id

def held (state : State) (id : CellId) : Bool :=
  state.mapped id ||
    state.tasks.any fun task => task.pc.own = some id || task.pc.victim = some id

def giveBack (state : State) (reservation : CacheCapacityReservation) : State :=
  match state.pool.returnToPool reservation with
  | some pool => { state with pool := pool }
  | none => { state with poolPanicked := true }

/-- The last owner drops the cell: its resource, if any, leaves the gauges and
returns its reservation. -/
def free (state : State) (id : CellId) : State :=
  match state.cellAt id with
  | some (.filled resource) =>
      { state with metrics := state.metrics.dropped resource }.giveBack resource.reservation
        |>.setCell id .freed
  | _ => state.setCell id .freed

def release (state : State) (id : CellId) : State :=
  if state.held id then state else state.free id

def releaseOption (state : State) : Option CellId → State
  | some id => state.release id
  | none => state

def countRoute (state : State) (task : Task) (change : CacheRouteMetrics → CacheRouteMetrics) :
    State :=
  { state with metrics := state.metrics.updateRoute task.host task.label change }

/-- The initialiser returned `Err` or was dropped: its permit is free again and
the get lets go of the cell. -/
def abandon (state : State) (id : TaskId) (task : Task) (cell : CellId) (pc : Pc) : State :=
  ((state.setCell cell .empty).setPc id task pc).release cell

end State

/-- What the critical section of the lookup does to the map. -/
structure Lookup where
  map : LruCache CachedResourceKey CellId
  own : CellId
  allocates : Bool
  unlinked : Option CellId

/-- Lines 187 to 193: promote or insert the key, then put a new cell in the place
of one that is filled and expired. -/
def State.lookupKey (state : State) (key : CachedResourceKey) (now : Instant) : Lookup :=
  let fresh := state.slots.length
  let inserted := state.map.getOrInsertMutRef key fresh
  if inserted.value = fresh then
    ⟨inserted.cache, fresh, true, inserted.displaced.map Prod.snd⟩
  else
    match state.cellAt inserted.value with
    | some (.filled resource) =>
        if resource.isExpired now then
          ⟨inserted.cache.replace key fresh, fresh, true, some inserted.value⟩
        else ⟨inserted.cache, inserted.value, false, none⟩
    | _ => ⟨inserted.cache, inserted.value, false, none⟩

inductive Action (T : Type → Type) where
  | start (cache : Cache T) (path : String) (now : Instant)
  | acquire (id : TaskId)
  | lookup (id : TaskId)
  | join (id : TaskId)
  | answer (id : TaskId) (answer : Answer)
  | store (id : TaskId) (diskError : Option String)
  | reserve (id : TaskId)
  | pop (id : TaskId)
  | evict (id : TaskId)
  | reserveUpTo (id : TaskId)
  | unlock (id : TaskId)
  | fill (id : TaskId) (clock : ClockReading)
  | count (id : TaskId)
  | respond (id : TaskId) (cloneError : Option String)
  | cancel (id : TaskId)

namespace State

variable {T : Type → Type} [PathTree T]

/-- Lines 148 to 182, up to the first wait. -/
def start (state : State) (cache : Cache T) (path : String) (now : Instant) : State :=
  let matched := cache.rules.matchRoute path
  let task (expiresAfter : Option Instant) (pc : Pc) : Task :=
    { host := cache.hostKey, path := path, now := now, label := routeLabel matched.2,
      expiresAfter := expiresAfter, pc := pc }
  let begin (task : Task) : State :=
    { state with tasks := state.tasks ++ [task] }.countRoute task CacheRouteMetrics.requested
  match plan matched.1 now with
  | .unrouted =>
      let task := task none (.finished (.ok none))
      (begin task).countRoute task CacheRouteMetrics.unrouted
  | .never =>
      let task := task none .neverFetch
      (begin task).countRoute task CacheRouteMetrics.never
  | .cached expiresAfter => begin (task expiresAfter .lookupLock)
  | .panicked => begin (task none .panicked)

def acquire (state : State) (id : TaskId) (task : Task) : Option State :=
  match state.lock, task.pc with
  | none, .lookupLock => some ({ state with lock := some id }.setPc id task .lookup)
  | none, .evictLock cell fetched =>
      some ({ state with lock := some id }.setPc id task (.popping cell fetched))
  | _, _ => none

/-- The guard is dropped at the end of the critical section, and with it what the
lookup unlinked from the map. -/
def afterLookup (state : State) (id : TaskId) (task : Task) : State :=
  let found := state.lookupKey task.key task.now
  { state with
    map := found.map
    lock := none
    slots := if found.allocates then state.slots ++ [Slot.mk task.key .empty] else state.slots }.setPc
      id task (.joining found.own)

def lookup (state : State) (id : TaskId) (task : Task) : Option State :=
  match task.pc with
  | .lookup =>
      some ((state.afterLookup id task).releaseOption (state.lookupKey task.key task.now).unlinked)
  | _ => none

/-- `get_or_try_init`: an initialised cell is read, an empty one gives its permit. -/
def join (state : State) (id : TaskId) (task : Task) : Option State :=
  match task.pc with
  | .joining cell =>
      match state.cellAt cell with
      | some (.filled resource) => some (state.setPc id task (.initialized cell resource))
      | some .empty =>
          some ((state.setCell cell (.initializing id)).setPc id task (.fetching cell))
      | _ => none
  | _ => none

def answer (state : State) (id : TaskId) (task : Task) (answer : Answer) : Option State :=
  match task.pc with
  | .neverFetch =>
      some (state.setPc id task (.finished (answer.map fun found => found.map fun resource =>
        ⟨resource.headers, .upstream resource.body, .never, none⟩)))
  | .fetching cell =>
      match answer with
      | .ok (some resource) => some (state.setPc id task (.storing cell resource))
      | .ok none =>
          some ((state.countRoute task CacheRouteMetrics.notFound).abandon id task cell
            (.finished (.ok none)))
      | .error failure =>
          some ((state.countRoute task CacheRouteMetrics.failed).abandon id task cell
            (.finished (.error failure)))
  | _ => none

def store (state : State) (id : TaskId) (task : Task) (diskError : Option String) : Option State :=
  match task.pc with
  | .storing cell resource =>
      match Upstream.store resource.body diskError with
      | .ok file => some (state.setPc id task (.reserving cell ⟨resource.headers, file⟩ false))
      | .error failure =>
          some ((state.countRoute task CacheRouteMetrics.failed).abandon id task cell
            (.finished (.error failure)))
  | _ => none

def reserve (state : State) (id : TaskId) (task : Task) : Option State :=
  match task.pc with
  | .reserving cell fetched locked =>
      match state.pool.reserve fetched.file.size with
      | some (pool, reservation) =>
          some ({ state with pool := pool }.setPc id task
            (.granted cell fetched reservation locked))
      | none =>
          if locked then some (state.setPc id task (.popping cell fetched))
          else some (state.setPc id task (.evictLock cell fetched))
  | _ => none

def pop (state : State) (id : TaskId) (task : Task) : Option State :=
  match task.pc with
  | .popping cell fetched =>
      match state.map.popLru with
      | some ((_, victim), rest) =>
          some ({ state with map := rest }.setPc id task (.evicting cell fetched victim))
      | none => some (state.setPc id task (.reservingUpTo cell fetched))
  | _ => none

/-- The counters of the evicted resource itself are bumped. -/
def evictionMetrics (state : State) (victim : CellId) : Metrics :=
  match state.cellAt victim with
  | some (.filled resource) => state.metrics.evicted resource
  | _ => state.metrics

def evict (state : State) (id : TaskId) (task : Task) : Option State :=
  match task.pc with
  | .evicting cell fetched victim =>
      some (({ state with metrics := state.evictionMetrics victim }.setPc id task
        (.reserving cell fetched true)).release victim)
  | _ => none

def reserveUpTo (state : State) (id : TaskId) (task : Task) : Option State :=
  match task.pc with
  | .reservingUpTo cell fetched =>
      match state.pool.reserveUpTo fetched.file.size with
      | some (pool, reservation) =>
          some ({ state with pool := pool }.setPc id task (.granted cell fetched reservation true))
      | none => some { state with poolPanicked := true }
  | _ => none

def unlock (state : State) (id : TaskId) (task : Task) : Option State :=
  match task.pc with
  | .granted cell fetched reservation true =>
      some ({ state with lock := none }.setPc id task (.granted cell fetched reservation false))
  | _ => none

/-- The gauges are bumped and the cell is set. -/
def fill (state : State) (id : TaskId) (task : Task) (clock : ClockReading) : Option State :=
  match task.pc with
  | .granted cell fetched reservation false =>
      let resource := task.resource id fetched reservation clock
      some (({ state with metrics := state.metrics.created task.host fetched.file.size }.setCell
        cell (.filled resource)).setPc id task (.initialized cell resource))
  | _ => none

def count (state : State) (id : TaskId) (task : Task) : Option State :=
  match task.pc with
  | .initialized cell resource =>
      some ((state.countRoute task (CacheRouteMetrics.served resource id)).setPc id task
        (.cloning cell resource))
  | _ => none

/-- The response body reads a clone of the file, which may fail to be made. -/
def respond (state : State) (id : TaskId) (task : Task) (cloneError : Option String) :
    Option State :=
  match task.pc with
  | .cloning cell resource =>
      let result := match cloneError with
        | none => .ok (some (resource.response id))
        | some message => .error (.io message)
      some ((state.setPc id task (.finished result)).release cell)
  | _ => none

/-- The future is dropped at an await point. Between the grant of a reservation
and the filling of the cell there is none. -/
def cancel (state : State) (id : TaskId) (task : Task) : Option State :=
  match task.pc with
  | .neverFetch | .lookupLock => some (state.setPc id task .cancelled)
  | .joining cell | .cloning cell _ => some ((state.setPc id task .cancelled).release cell)
  | .fetching cell | .storing cell _ | .evictLock cell _ =>
      some (state.abandon id task cell .cancelled)
  | _ => none

end State

variable {T : Type → Type} [PathTree T]

def step (state : State) : Action T → Option State
  | .start cache path now => some (state.start cache path now)
  | .acquire id => (state.tasks[id]?).bind fun task => state.acquire id task
  | .lookup id => (state.tasks[id]?).bind fun task => state.lookup id task
  | .join id => (state.tasks[id]?).bind fun task => state.join id task
  | .answer id answer => (state.tasks[id]?).bind fun task => state.answer id task answer
  | .store id diskError => (state.tasks[id]?).bind fun task => state.store id task diskError
  | .reserve id => (state.tasks[id]?).bind fun task => state.reserve id task
  | .pop id => (state.tasks[id]?).bind fun task => state.pop id task
  | .evict id => (state.tasks[id]?).bind fun task => state.evict id task
  | .reserveUpTo id => (state.tasks[id]?).bind fun task => state.reserveUpTo id task
  | .unlock id => (state.tasks[id]?).bind fun task => state.unlock id task
  | .fill id clock => (state.tasks[id]?).bind fun task => state.fill id task clock
  | .count id => (state.tasks[id]?).bind fun task => state.count id task
  | .respond id cloneError => (state.tasks[id]?).bind fun task => state.respond id task cloneError
  | .cancel id => (state.tasks[id]?).bind fun task => state.cancel id task

/-- The steps of a get up to its answer when it finds no filled cell, and those
from its body to its response when the pool has room. -/
def fetchActions (cache : Cache T) (path : String) (now : Instant) (id : TaskId)
    (answer : Answer) : List (Action T) :=
  [.start cache path now, .acquire id, .lookup id, .join id, .answer id answer]

def fillActions (id : TaskId) (clock : ClockReading) : List (Action T) :=
  [.store id none, .reserve id, .fill id clock]

def respondActions (id : TaskId) : List (Action T) := [.count id, .respond id none]

end Server3.Machine
