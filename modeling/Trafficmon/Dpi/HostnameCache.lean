import Trafficmon.Lib.GoMap

/-!
# The hostname cache (`dpi/hostname_cache.go`)

A `container/list` of entries, most recently used first, and an index from address to list element.
Elements are numbered as they are made: `elems` is what each holds, `ll` the order of those in the
list.
-/

namespace Trafficmon

structure HostnameCacheEntry where
  ip : String
  hostname : String
  expires : Int
deriving DecidableEq, Repr

structure HostnameCache where
  capacity : Int
  ttl : Int
  ll : List Nat := []
  elems : GoMap Nat HostnameCacheEntry := ∅
  index : GoMap String Nat := ∅
  nextElem : Nat := 0

def newHostnameCache (capacity ttl : Int) : HostnameCache := { capacity := capacity, ttl := ttl }

namespace HostnameCache

def moveToFront (c : HostnameCache) (el : Nat) : HostnameCache :=
  if el ∈ c.ll then { c with ll := el :: c.ll.erase el } else c

def pushFront (c : HostnameCache) (e : HostnameCacheEntry) : HostnameCache × Nat :=
  ({ c with ll := c.nextElem :: c.ll, elems := c.elems.insert c.nextElem e, nextElem := c.nextElem + 1 }, c.nextElem)

def put (c : HostnameCache) (ip hostname : String) (now : Int) : HostnameCache :=
  match c.index.lookup ip with
  | some el =>
    let c := c.moveToFront el
    { c with elems := c.elems.insert el ⟨((c.elems.lookup el).map (·.ip)).getD ip, hostname, now + c.ttl⟩ }
  | none =>
    let (c, el) := c.pushFront ⟨ip, hostname, now + c.ttl⟩
    let c := { c with index := c.index.insert ip el }
    if c.capacity < c.ll.length then
      match c.ll.getLast? with
      | none => c
      | some back =>
        { c with
          ll := c.ll.erase back
          index := (c.elems.lookup back).elim c.index fun e => c.index.erase e.ip }
    else c

def get (c : HostnameCache) (ip : String) (now : Int) : HostnameCache × String × Bool :=
  match c.index.lookup ip with
  | none => (c, "", false)
  | some el =>
    match c.elems.lookup el with
    | none => (c, "", false)  -- no element is made without its entry
    | some e =>
      if e.expires < now then ({ c with ll := c.ll.erase el, index := c.index.erase ip }, "", false)
      else (c.moveToFront el, e.hostname, true)

/-- What the list holds, front to back. -/
def entries (c : HostnameCache) : List HostnameCacheEntry := c.ll.filterMap c.elems.lookup

end HostnameCache
end Trafficmon
