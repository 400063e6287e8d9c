import ParrotServe.Framework.CommonPrefix
import ParrotServe.Framework.Dict
import ParrotServe.Model.RequestChain

/-!
# The prefix matcher

`PrefixMatcher` (`parrot/serve/prefix_matcher.py`): a table of counted prefixes in two levels.  The
first level is the first `_START_LEN` characters.  A string that shares one character more with a
key of its second level shortens this key, in place, to what they have in common, and is counted
there; otherwise it is a new key.

An exception ends a call of `add_prefix`; its only accesses that can raise are those of the
characters and of the counts.
-/

namespace ParrotServe

/-- `PrefixMatcher`. -/
structure PrefixMatcher where
  /-- `_prefix_counter`. -/
  prefixCounter : Dict Text (Dict Text ℕ) := .empty

namespace PrefixMatcher

/-- `_START_LEN`. -/
def startLen : ℕ := 40

/-- `_GP_THRESHOLD`. -/
def gpThreshold : ℕ := 3

/-! ## `add_prefix` -/

/-- A matched key is reduced to the common prefix, and counted. -/
def reduceKey (text k : Text) (counter : Dict Text ℕ) : Except PyError (Dict Text ℕ) :=
  let i := startLen + commonLength (k.drop startLen) (text.drop startLen)
  let newK := k.take i
  match counter.get? k with
  | none => .error (.keyError (String.ofList k))
  | some count =>
      if i = k.length then .ok (counter.set k (count + 1))
      else .ok ((counter.set newK (count + 1)).erase k)

/-- The loop over the keys of the second level. -/
def matchKeys (text : Text) (counter : Dict Text ℕ) : List Text → Except PyError (Dict Text ℕ)
  | [] => .ok (counter.set text 1)
  | k :: ks =>
      match k[startLen]?, text[startLen]? with
      | some a, some b => if a = b then reduceKey text k counter else matchKeys text counter ks
      | _, _ => .error .indexError

variable (m : PrefixMatcher)

/-- `add_prefix`. -/
def addPrefix (text : Text) : Except PyError PrefixMatcher :=
  if text.length ≤ startLen then .ok m
  else
    let lookup := text.take startLen
    let counter := (m.prefixCounter.get? lookup).getD .empty
    match matchKeys text counter counter.keys with
    | .error e => .error e
    | .ok counter => .ok { m with prefixCounter := m.prefixCounter.set lookup counter }

/-- Calls of `add_prefix`, one after the other. -/
def addPrefixes : PrefixMatcher → List Text → Except PyError PrefixMatcher
  | m, [] => .ok m
  | m, text :: texts =>
      match m.addPrefix text with
      | .error e => .error e
      | .ok m => addPrefixes m texts

/-! ## `query_prefix` -/

/-- `query_prefix`. -/
def queryPrefix (text : Text) : ℤ :=
  if text.length ≤ startLen then -1
  else
    match m.prefixCounter.get? (text.take startLen) with
    | none => -1
    | some counter =>
        match counter.entries.find? fun e => decide (gpThreshold < e.2) && e.1.isPrefixOf text with
        | none => -1
        | some e => e.1.length

end PrefixMatcher

end ParrotServe
