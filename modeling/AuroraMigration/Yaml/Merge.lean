import AuroraMigration.Yaml.Node

/-!
# Entries of mappings

The entries of a mapping are those written in it and, after the key `<<`, those
of other mappings, which count only where the mapping has no such key itself. No
key is written twice in a mapping, also in one that nobody asks for.
-/

namespace AuroraMigration.Yaml

structure Entry where
  key : Yaml
  value : Yaml
  /-- Whether key and value can be passed over, because no key stands twice in them. -/
  sound : Bool

/-- Whether a key asks for the entries of its value. -/
def isMergeKey : Yaml → Bool
  | .scalar .plain none text => text == "<<".toList
  | _ => false

def hasKey (entries : List Entry) (key : Yaml) : Bool :=
  entries.any (sameKey ·.key key)

def haveDistinctKeys : List Entry → Bool
  | [] => true
  | entry :: rest => !hasKey rest entry.key && haveDistinctKeys rest

/-- Add the entries whose keys are not there yet, one after the other. -/
def addMissing (entries : List Entry) : List Entry → List Entry
  | [] => entries
  | entry :: rest =>
      if hasKey entries entry.key then addMissing entries rest
      else addMissing (entries ++ [entry]) rest

structure Survey where
  sound : Bool
  /-- The entries that the node gives to a mapping that merges it. -/
  merged : Option (List Entry)

/-- A mapping as written: its own entries, and what the values of its merge keys give to it. -/
structure Listing where
  own : List Entry := []
  merges : List (Option (List Entry)) := []

namespace Listing

def add (listing : Listing) (key value : Yaml) (keySurvey valueSurvey : Survey) : Listing :=
  if isMergeKey key then { listing with merges := valueSurvey.merged :: listing.merges }
  else
    let entry : Entry := { key, value, sound := keySurvey.sound && valueSurvey.sound }
    { listing with own := entry :: listing.own }

/-- All merged entries, those of the last merge key first. -/
def mergedEntries? (listing : Listing) : Option (List Entry) :=
  (listing.merges.mapM id).map fun batches => batches.reverse.flatten

def entries? (listing : Listing) : Option (List Entry) := do
  let merged ← listing.mergedEntries?
  if haveDistinctKeys listing.own then some (addMissing listing.own merged) else none

def survey (listing : Listing) : Survey :=
  { sound := listing.entries?.any (·.all Entry.sound)
    merged := listing.mergedEntries?.map (listing.own ++ ·) }

end Listing

mutual

def survey : Yaml → Survey
  | .scalar style tag text =>
      { sound := true, merged := if isNull (.scalar style tag text) then some [] else none }
  | .list items =>
      let surveys := surveyItems items
      { sound := surveys.all Survey.sound
        merged := (surveys.mapM Survey.merged).map fun batches => batches.reverse.flatten }
  | .map entries => (listEntries entries).survey

def surveyItems : List Yaml → List Survey
  | [] => []
  | item :: rest => survey item :: surveyItems rest

def listEntries : List (Yaml × Yaml) → Listing
  | [] => {}
  | (key, value) :: rest => (listEntries rest).add key value (survey key) (survey value)

end

/-- The entries of a mapping, if the node is one and no key is written twice in it. -/
def entries? : Yaml → Option (List Entry)
  | .map entries => (listEntries entries).entries?
  | _ => none

end AuroraMigration.Yaml
