import DsProxy.Lib.Hex

/-!
# Nostr events

Events as the relay stores them, the filters both services subscribe with, and the machine an event
mentions. Ids are hashes and pubkeys are checked by the relay's clients, so both are opaque bytes.
-/

namespace DsProxy.Relay

abbrev EventId := Vector UInt8 32
abbrev PublicKey := Vector UInt8 32

structure Event where
  id : EventId
  pubkey : PublicKey
  createdAt : UInt64
  kind : ℕ
  tags : List (List String)
  content : String
  deriving DecidableEq

/-- `EVENT_KIND`. -/
def eventKind : ℕ := 1573

/-- `to_hex` of a public key. -/
def PublicKey.toHex (key : PublicKey) : String := Hex.ofVector key

/-- Where and under what id the relay stored a published event. -/
structure Stamp where
  id : EventId
  createdAt : UInt64

/-- The event of a service: the session and one mention as its tags. -/
def Event.posted (pubkey : PublicKey) (session mention content : String) (stamp : Stamp) :
    Event where
  id := stamp.id
  pubkey := pubkey
  createdAt := stamp.createdAt
  kind := eventKind
  tags := [["s", session], ["p", mention]]
  content := content

/-- The fields of a subscription filter the services use. -/
structure Filter where
  kind : ℕ
  authors : Option (List PublicKey)
  since : Option UInt64
  until_ : Option UInt64
  session : String
  mentions : List String

/-- Some tag with this name has one of the values. -/
def Event.hasTag (event : Event) (name : String) (values : List String) : Bool :=
  event.tags.any fun
    | tagName :: value :: _ => tagName == name && values.contains value
    | _ => false

def Filter.accepts (filter : Filter) (event : Event) : Bool :=
  event.kind == filter.kind &&
    filter.authors.all (·.contains event.pubkey) &&
    filter.since.all (· ≤ event.createdAt) &&
    filter.until_.all (event.createdAt ≤ ·) &&
    event.hasTag "s" [filter.session] &&
    event.hasTag "p" filter.mentions

/-- The content of the first `p` tag that has one. -/
def extractMention (event : Event) : Option String :=
  event.tags.findSome? fun
    | "p" :: content :: _ => some content
    | _ => none

end DsProxy.Relay
