import SentryCpp.External.Json

/-!
The scope: the data that goes with every event. Tags and extras are JSON
values that start as null and become objects with the first entry. `ValueMap`
has no other values, so that none of the calls into the library throws on
them.
-/

namespace Sentry

open StdString

inductive EventLevel where
  | debug
  | info
  | warning
  | error
  | fatal
  deriving DecidableEq, Repr

/-- The value of the enumerator. -/
def EventLevel.toInt : EventLevel → Int
  | .debug => -1
  | .info => 0
  | .warning => 1
  | .error => 2
  | .fatal => 3

def levelToString : EventLevel → Bytes
  | .fatal => lit "fatal"
  | .error => lit "error"
  | .warning => lit "warning"
  | .debug => lit "debug"
  | .info => lit "info"

inductive ValueMap where
  | null
  | object (members : List (Bytes × Json))
  deriving BEq, Repr

namespace ValueMap

def toJson : ValueMap → Json
  | .null => .null
  | .object members => .object members

/-- The value at a key, as `find` sees it. -/
def get (m : ValueMap) (key : Bytes) : Option Json := m.toJson.find key

def emplace (key : Bytes) (value : Json) : ValueMap → ValueMap
  | .null => .object [(key, value)]
  | .object members => .object (Json.insertNew key value members)

def erase (key : Bytes) : ValueMap → ValueMap
  | .null => .null
  | .object members => .object (members.filter fun member => member.1 ≠ key)

theorem toJson_emplace (m : ValueMap) (key : Bytes) (value : Json) :
    m.toJson.emplace key value = .ok (m.emplace key value).toJson := by
  cases m <;> rfl

/-- `erase` of the library throws on null; the callers have found the key. -/
theorem toJson_erase {m : ValueMap} {key : Bytes} (h : (m.get key).isSome = true) :
    m.toJson.erase key = .ok (m.erase key).toJson := by
  cases m with
  | null => simp [get, toJson, Json.find] at h
  | object members => rfl

theorem get_emplace (m : ValueMap) (key : Bytes) (value : Json) (other : Bytes) :
    (m.emplace key value).get other =
      if other = key then some ((m.get key).getD value) else m.get other := by
  cases m with
  | null => simp [get, toJson, Json.find, emplace, Json.lookup_cons, eq_comm]
  | object members => exact Json.lookup_insertNew key value members other

theorem get_erase (m : ValueMap) (key other : Bytes) :
    (m.erase key).get other = if other = key then none else m.get other := by
  cases m with
  | null => simp [get, toJson, Json.find, erase]
  | object members => exact Json.lookup_filter_ne key members other

end ValueMap

structure Scope where
  transactionName : Bytes
  release : Bytes
  level : EventLevel
  maxBreadcrumbs : UInt16
  breadcrumbs : List Json
  extras : ValueMap
  tags : ValueMap
  deriving BEq, Repr

namespace Scope

def setValueMap (key value : Bytes) (mapObject : ValueMap) : ValueMap :=
  if value = [] then
    if (mapObject.get key).isSome then mapObject.erase key else mapObject
  else mapObject.emplace key (.string value)

/-- None of the calls that `setValueMap` makes into the library throws. -/
theorem setValueMap_toJson (key value : Bytes) (m : ValueMap) :
    (if value = [] then
      if (m.toJson.find key).isSome then m.toJson.erase key else .ok m.toJson
    else m.toJson.emplace key (.string value)) =
      .ok (setValueMap key value m).toJson := by
  unfold setValueMap
  split
  · rw [← ValueMap.get]
    split
    · rename_i hfound
      exact ValueMap.toJson_erase hfound
    · rfl
  · exact ValueMap.toJson_emplace m key (.string value)

theorem get_setValueMap (key value : Bytes) (m : ValueMap) (other : Bytes) :
    (setValueMap key value m).get other =
      if other = key then
        if value = [] then none else some ((m.get key).getD (.string value))
      else m.get other := by
  unfold setValueMap
  split
  · split
    · exact m.get_erase key other
    · rename_i habsent
      rw [Option.not_isSome_iff_eq_none] at habsent
      split
      · rename_i hother
        rw [hother, habsent]
      · rfl
  · exact m.get_emplace key (.string value) other

def setExtra (s : Scope) (key value : Bytes) : Scope :=
  { s with extras := setValueMap key value s.extras }

def setTag (s : Scope) (key value : Bytes) : Scope :=
  { s with tags := setValueMap key value s.tags }

def setRelease (s : Scope) (release : Bytes) : Scope := { s with release := release }

def setMaxBreadcrumbs (s : Scope) (maxBreadcrumbs : UInt16) : Scope :=
  { s with maxBreadcrumbs := maxBreadcrumbs }

def clearBreadcrumbs (s : Scope) : Scope := { s with breadcrumbs := [] }

/-- The names that `getlogin` and `gethostname` return, if they do. -/
def setDefaultTags (s : Scope) (userLogin hostName : Option Bytes) : Scope :=
  let s := userLogin.elim s fun login => s.setTag (lit "user_login") login
  hostName.elim s fun name => s.setTag (lit "server_name") name

/-- The constructor. -/
def new (userLogin hostName : Option Bytes) : Scope :=
  Scope.setDefaultTags
    { transactionName := []
      release := []
      level := .info
      maxBreadcrumbs := 100
      breadcrumbs := []
      extras := .null
      tags := .null }
    userLogin hostName

def addBreadcrumb (s : Scope) (crumb : Json) : Scope :=
  let breadcrumbs := s.breadcrumbs ++ [crumb]
  if s.maxBreadcrumbs.toNat < breadcrumbs.length then
    { s with breadcrumbs := breadcrumbs.tail }
  else { s with breadcrumbs := breadcrumbs }

def getBreadcrumbs (s : Scope) : Json := .object [(lit "values", .array s.breadcrumbs)]

def getLevelStr (s : Scope) : Bytes := levelToString s.level

def applyToEvent (s : Scope) (event : Json) : Except Json.TypeError Json := do
  let event ←
    if s.breadcrumbs ≠ [] then event.pushBack (lit "breadcrumbs") s.getBreadcrumbs
    else pure event
  let event ←
    if s.tags.toJson.empty then pure event
    else event.pushBack (lit "tags") s.tags.toJson
  let event ←
    if s.extras.toJson.empty then pure event
    else event.pushBack (lit "extra") s.extras.toJson
  let event ←
    if s.transactionName ≠ [] then
      event.pushBack (lit "transaction") (.string s.transactionName)
    else pure event
  let event ←
    if s.release ≠ [] then event.pushBack (lit "release") (.string s.release)
    else pure event
  event.pushBack (lit "level") (.string s.getLevelStr)

end Scope

end Sentry
