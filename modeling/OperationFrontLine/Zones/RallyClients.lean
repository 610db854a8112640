import OperationFrontLine.Zones.Announce

/-!
# Rally points on the clients

Every client keeps a list of the rally points and a local flag for each.  It fills the list
from the answer to its own request and changes it by the broadcasts, which reach it in the
order in which they were sent; that a unit has died, or is gone, it sees at a time of its own.
An element that is read beyond its end, or the mark `-1`, is a script error, and the script
ends there.
-/

namespace OperationFrontLine.Zones

open OperationFrontLine.Library

variable {Flag : Type}

/-- An element of `OPFL_LOCAL_RP_LIST`; a null object is `none`.  Without a flag it is
`[person, votes, position]` and nothing behind these. -/
structure LocalRP where
  person : Option Person
  vote : ℚ
  position : List ℚ
  flag : Option ℕ
  deriving DecidableEq, Repr

inductive RallyMessage where
  /-- to all clients -/
  | told (change : RallyChange)
  /-- `OPFL_SynchAllRP`, to the client that has asked for it -/
  | synchAllRP (data : Text)
  deriving DecidableEq, Repr

structure RallyClient where
  /-- `OPFL_LOCAL_RP_LIST`, with `none` for the mark `-1` -/
  list : Option (List (Option LocalRP))
  /-- the messages that have not arrived, the next one first -/
  channel : List RallyMessage
  /-- the objects that this client knows -/
  present : Person → Bool
  alive : Person → Bool
  /-- the local flags that exist -/
  flags : List ℕ
  nextFlag : ℕ

/-- What a loop that marks elements has done when it ends, or when it fails. -/
structure Struck where
  list : List (Option LocalRP)
  /-- the flags that were deleted -/
  deleted : List ℕ
  ended : Bool

def flagsOf (entries : List (Option LocalRP)) : List ℕ :=
  entries.filterMap fun element => element.bind LocalRP.flag

/-- A loop that deletes the flags of some elements and marks these, and only looks at the
flags of others. -/
def strikeEach (strikes reads : LocalRP → Bool) : List (Option LocalRP) → Struck
  | [] => ⟨[], [], true⟩
  | none :: rest => ⟨none :: rest, [], false⟩
  | some entry :: rest =>
      if strikes entry || reads entry then
        match entry.flag with
        | none => ⟨some entry :: rest, [], false⟩
        | some flag =>
            let struck := strikeEach strikes reads rest
            if strikes entry then ⟨none :: struck.list, flag :: struck.deleted, struck.ended⟩
            else { struck with list := some entry :: struck.list }
      else
        let struck := strikeEach strikes reads rest
        { struck with list := some entry :: struck.list }

/-- The loop of `UpdateRP`, which ends with the first element of the person. -/
def voteEach (person : Person) (vote : ℚ) : List (Option LocalRP) → List (Option LocalRP)
  | [] => []
  | none :: rest => none :: rest
  | some entry :: rest =>
      if entry.person = some person then some { entry with vote := vote } :: rest
      else some entry :: voteEach person vote rest

namespace RallyClient

/-- Somebody joins: `OPFL_LOCAL_RP_LIST` is nil. -/
def joined : RallyClient where
  list := none
  channel := []
  present _ := true
  alive _ := true
  flags := []
  nextFlag := 0

def sees (client : RallyClient) (person : Person) : Bool :=
  client.present person && client.alive person

def seesOwner (client : RallyClient) (entry : LocalRP) : Bool :=
  entry.person.any client.sees

/-- The list and the flags behind a loop that marks elements: `- [-1]` comes when the loop
has come to its end. -/
def afterStrikes (client : RallyClient) (struck : Struck) : RallyClient :=
  { client with
    list := some (if struck.ended then struck.list.filter Option.isSome else struck.list)
    flags := client.flags.filter (· ∉ struck.deleted) }

def createRP (client : RallyClient) (person : Person) (position : Position) : RallyClient :=
  match client.list with
  | none => client
  | some entries =>
      if client.sees person then
        { client with
          list := some (entries ++ [some ⟨some person, 0, position.coordinates,
            some client.nextFlag⟩])
          flags := client.flags ++ [client.nextFlag]
          nextFlag := client.nextFlag + 1 }
      else client

def updateRP (client : RallyClient) (person : Person) (vote : ℕ) : RallyClient :=
  match client.list with
  | none => client
  | some entries =>
      if client.present person then { client with list := some (voteEach person vote entries) }
      else client

/-- `DeleteRP` takes the elements of the person and those of null objects. -/
def deletes (client : RallyClient) (person : Person) (entry : LocalRP) : Bool :=
  match entry.person with
  | none => true
  | some owner => !client.present owner || owner == person

def deleteRP (client : RallyClient) (person : Person) : RallyClient :=
  match client.list with
  | none => client
  | some entries =>
      client.afterStrikes (strikeEach (client.deletes person) (fun _ => false) entries)

/-- An element as `SynchAllRP` has read it; only whole ones are appended to the list. -/
def localRP (client : RallyClient) : Blck Person ℚ → LocalRP
  | .rally object vote coordinates =>
      ⟨if client.present object then some object else none, vote, coordinates, none⟩
  | .person object => ⟨if client.present object then some object else none, 0, [], none⟩
  | .empty => ⟨none, 0, [], none⟩

/-- The last loop of `SynchAllRP`: a flag for every unit that lives. -/
def flagEach (client : RallyClient) : ℕ → List LocalRP → List (Option LocalRP)
  | _, [] => []
  | next, entry :: rest =>
      if client.seesOwner entry then
        some { entry with flag := some next } :: client.flagEach (next + 1) rest
      else some entry :: client.flagEach next rest

def synchAllRP (format : FieldStrings Person ℚ) (client : RallyClient) (data : Text) :
    RallyClient :=
  match client.list with
  | some _ => client
  | none =>
      let entries := client.flagEach client.nextFlag
        ((Zones.synchAllRP format data).map client.localRP)
      { client with
        list := some entries
        flags := client.flags ++ flagsOf entries
        nextFlag := client.nextFlag + (flagsOf entries).length }

def handle (format : FieldStrings Person ℚ) (client : RallyClient) :
    RallyMessage → RallyClient
  | .told (.createRP person position) => client.createRP person position
  | .told (.updateRP person vote) => client.updateRP person vote
  | .told (.deleteRP person) => client.deleteRP person
  | .synchAllRP data => client.synchAllRP format data

/-- The per-frame event that `SynchAllRP` adds, and whether it comes to its end; the sizes of
the markers are set when the map is zoomed. -/
def frame (client : RallyClient) (zoomed : Bool) : RallyClient × Bool :=
  match client.list with
  | none => (client, true)
  | some entries =>
      if zoomed && entries.any fun element => !element.any fun entry => entry.flag.isSome then
        (client, false)
      else
        let struck := strikeEach (fun entry => !client.seesOwner entry) (fun _ => true) entries
        (client.afterStrikes struck, struck.ended)

end RallyClient

structure RallyNetwork (Flag : Type) where
  session : RallySession Flag
  /-- the units that live, as the server sees it -/
  alive : Person → Bool
  clients : List RallyClient

inductive RallyNetworkEvent (Flag : Type) where
  /-- an operation of the server -/
  | operation (event : RallyEvent Flag)
  | die (person : Person)
  | join
  /-- the server answers a client -/
  | requestAllRP (world : World) (client : ℕ)
  /-- the next message of a client arrives -/
  | deliver (client : ℕ)
  | frame (client : ℕ) (zoomed : Bool)
  | seeDeath (client : ℕ) (person : Person)
  | seeRemoval (client : ℕ) (person : Person)

def RallyEvent.seen (alive : Person → Bool) : RallyEvent Flag → RallyEvent Flag
  | .remove person => .remove person
  | .flags zone => .flags zone
  | .deployRP time world person positionPlayer originalPos =>
      .deployRP time { world with alive := alive } person positionPlayer originalPos
  | .fortifyRP time world person unitId positionPlayer =>
      .fortifyRP time { world with alive := alive } person unitId positionPlayer
  | .destroyFlagZone time world flag destroyingSide =>
      .destroyFlagZone time { world with alive := alive } flag destroyingSide
  | .track time world => .track time { world with alive := alive }

namespace RallyNetwork

variable (settings : Settings Flag) (format : FieldStrings Person ℚ)

def start (zone : Flag → FlagZone) : RallyNetwork Flag where
  session := .start zone settings
  alive _ := true
  clients := []

def update (net : RallyNetwork Flag) (index : ℕ) (change : RallyClient → RallyClient) :
    RallyNetwork Flag :=
  { net with clients := net.clients.modify index change }

/-- The broadcasts join what is under way to every client. -/
def broadcast (net : RallyNetwork Flag) (changes : List RallyChange) : RallyNetwork Flag :=
  { net with
    clients := net.clients.map fun client =>
      { client with channel := client.channel ++ changes.map RallyMessage.told } }

variable [DecidableEq Flag]

def step (net : RallyNetwork Flag) : RallyNetworkEvent Flag → Option (RallyNetwork Flag)
  | .operation event =>
      let event := event.seen net.alive
      some (({ net with
        session := ⟨net.session.zonesAfter settings event, net.session.presentAfter event⟩ } :
          RallyNetwork Flag).broadcast (net.session.tells settings event))
  | .die person => some { net with alive := Function.update net.alive person false }
  | .join => some { net with clients := net.clients ++ [.joined] }
  | .requestAllRP world index =>
      let data := requestAllRP format
        (net.session.answers { world with alive := net.alive }) net.session.zones
      some (net.update index fun client =>
        { client with channel := client.channel ++ [.synchAllRP data] })
  | .deliver index =>
      match (net.clients[index]?).map RallyClient.channel with
      | some (message :: rest) =>
          some (net.update index fun client =>
            { client with channel := rest }.handle format message)
      | _ => none
  | .frame index zoomed =>
      some (net.update index fun client => (client.frame zoomed).1)
  | .seeDeath index person =>
      some (net.update index fun client =>
        { client with alive := Function.update client.alive person false })
  | .seeRemoval index person =>
      some (net.update index fun client =>
        { client with present := Function.update client.present person false })

end RallyNetwork

end OperationFrontLine.Zones
