import Clearing.Table

/-!
# Expiring caches

An entry of the cache is worth something while it is younger than the lifetime
of the cache.  Entries that have expired are not removed until someone asks for
them, and then in a step of its own, `dropExpired`, which looks at the age
again.
-/

namespace Clearing

/-- A value and when it was put there. -/
structure Aged (ν : Type) where
  value : ν
  since : Nat
  deriving DecidableEq, Repr

namespace Aged

variable {ν : Type}

/-- Younger than a lifetime. -/
def isFresh (entry : Aged ν) (lifetimeMillis now : Nat) : Bool :=
  now - entry.since < lifetimeMillis

end Aged

/-- A cache whose entries expire. -/
structure ExpiringCache (κ ν : Type) where
  lifetimeMillis : Nat
  entries : Table κ (Aged ν)

namespace ExpiringCache

variable {κ ν : Type}

/-- A cache without entries. -/
def empty (lifetimeMillis : Nat) : ExpiringCache κ ν :=
  { lifetimeMillis, entries := [] }

/-- The number of entries, those that have expired included. -/
def size (cache : ExpiringCache κ ν) : Nat :=
  cache.entries.length

/-- The cache after all entries were removed. -/
def clear (cache : ExpiringCache κ ν) : ExpiringCache κ ν :=
  { cache with entries := [] }

variable [Ord κ]

/-- The value of a key, if it has not expired. -/
def look? (cache : ExpiringCache κ ν) (now : Nat) (key : κ) : Option ν :=
  match cache.entries.find? key with
  | some entry => if entry.isFresh cache.lifetimeMillis now then some entry.value else none
  | none => none

/-- The cache without the entry of a key, if that has expired. -/
def dropExpired (cache : ExpiringCache κ ν) (now : Nat) (key : κ) : ExpiringCache κ ν :=
  match cache.entries.find? key with
  | some entry =>
    if entry.isFresh cache.lifetimeMillis now then cache
    else { cache with entries := cache.entries.erase key }
  | none => cache

/-- The value of a key, and the cache after an entry that has expired was removed. -/
def get (cache : ExpiringCache κ ν) (now : Nat) (key : κ) : Option ν × ExpiringCache κ ν :=
  (cache.look? now key, cache.dropExpired now key)

/-- The cache with a new value for a key. -/
def insert (cache : ExpiringCache κ ν) (now : Nat) (key : κ) (value : ν) : ExpiringCache κ ν :=
  { cache with entries := cache.entries.insert key { value, since := now } }

/-- The cache without the entry of a key. -/
def invalidate (cache : ExpiringCache κ ν) (key : κ) : ExpiringCache κ ν :=
  { cache with entries := cache.entries.erase key }

/-- A value that is found was there before, and it stays. -/
theorem dropExpired_of_look?_isSome {cache : ExpiringCache κ ν} {now : Nat} {key : κ}
    (h : (cache.look? now key).isSome) : cache.dropExpired now key = cache := by
  simp only [look?, dropExpired] at h ⊢
  split at h
  · split at h
    · simp_all
    · simp at h
  · simp at h

end ExpiringCache

end Clearing
