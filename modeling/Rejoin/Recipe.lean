import Rejoin.Capability

/-!
# Recipes

Resolvers of plugin kinds made from the texts of other values.  A recipe either settles the matter by itself, or
asks for kinds in order; an error ends it.
-/

namespace Rejoin

def Capability.textOf : (k : Capability) → k.Carrier → String
  | .console, _ => "listener"
  | .record, r => Record.text r
  | .dir, d => Dir.path d
  | .lease, l => (Lease.dir l).path
  | .slot, s => Slot.text s
  | .worker, w => Worker.text w
  | .node, n => Node.name n
  | .plugin _, s => s

/-- How a plugin makes its text. -/
inductive Recipe where
  | value (text : String)
  | absent
  | error (e : LookupError Capability)
  /-- All texts in parentheses, a tilde for what is absent. -/
  | tuple (ks : List Capability)
  /-- The first text that is there. -/
  | first (ks : List Capability)
  /-- All texts with plus signs between, if none is absent. -/
  | sum (ks : List Capability)
deriving DecidableEq, Repr

namespace Recipe

variable {name : String}

/-- Asks for the texts of kinds in order, and goes on with all of them. -/
def texts (next : List (Option String) → Enquiry Capability.Carrier (.plugin name)) :
    List Capability → Enquiry Capability.Carrier (.plugin name)
  | [] => next []
  | k :: ks => .seek k fun v => texts (fun ts => next (v.map k.textOf :: ts)) ks

/-- Asks for the texts of kinds in order up to one that is absent, and goes on with all of them. -/
def allTexts (next : List String → Enquiry Capability.Carrier (.plugin name)) :
    List Capability → Enquiry Capability.Carrier (.plugin name)
  | [] => next []
  | k :: ks => .need k fun v => allTexts (fun ts => next (k.textOf v :: ts)) ks

/-- Asks for kinds in order up to one that is there. -/
def firstText : List Capability → Enquiry Capability.Carrier (.plugin name)
  | [] => .nothing
  | k :: ks => .seek k fun
    | some v => .give (k.textOf v)
    | none => firstText ks

/-- The enquiry of a recipe. -/
def enquiry : Recipe → Enquiry Capability.Carrier (.plugin name)
  | .value t => .give t
  | .absent => .nothing
  | .error e => .fail e
  | .tuple ks => texts (fun ts => .give ("(" ++ String.intercalate "," (ts.map (·.getD "~")) ++ ")")) ks
  | .first ks => firstText ks
  | .sum ks => allTexts (fun ts => .give (String.intercalate "+" ts)) ks

/-- The resolver of a plugin kind by a recipe. -/
def resolver (name : String) (r : Recipe) : StepResolver := ⟨.plugin name, fun _ => r.enquiry⟩

end Recipe

end Rejoin
