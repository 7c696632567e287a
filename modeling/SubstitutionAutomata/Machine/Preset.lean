import SubstitutionAutomata.Machine.Definition

/-! Machines that come with the library. -/

namespace SubstitutionAutomata

structure Preset where
  name : String
  transitions : List String
  defaultInput : String
  accepting : List String
  description : String

namespace Preset

/-- Copies a string of bits between two B: B01B becomes B01B01B, and the head ends left of the first
B. A copied 0 is marked X and a copied 1 is marked Y; C marks the B between the copies. -/
def duplicate : Preset where
  name := "duplicate"
  transitions := [
    "Q0:B/B->R:Q1",
    "Q1:0/0->R:Q1", "Q1:1/1->R:Q1", "Q1:B/C->L:Q2",
    "Q2:0/0->L:Q2", "Q2:1/1->L:Q2", "Q2:C/C->L:Q2",
    "Q2:B/B->R:Q3", "Q2:X/X->R:Q3", "Q2:Y/Y->R:Q3",
    "Q3:0/X->R:Q10", "Q3:1/Y->R:Q20", "Q3:C/B->L:Q30",
    "Q10:0/0->R:Q10", "Q10:1/1->R:Q10", "Q10:C/C->R:Q10", "Q10:_/0->L:Q2",
    "Q20:0/0->R:Q20", "Q20:1/1->R:Q20", "Q20:C/C->R:Q20", "Q20:_/1->L:Q2",
    "Q30:X/0->L:Q30", "Q30:Y/1->L:Q30", "Q30:B/B->L:Q99"]
  defaultInput := "B00101100000011B"
  accepting := ["Q99"]
  description := "Copy a B-delimited bitstring after itself"

/-- Accepts i letters a, j letters b and k letters c before an F if i times j is k. For every a, the
b are crossed out one after another against the c. -/
def timesTable : Preset where
  name := "a-times-b"
  transitions := [
    "Q0:a/X->R:Q1", "Q0:b/b->R:Q5",
    "Q1:a/a->R:Q1", "Q1:b/Y->R:Q2", "Q1:Z/Z->L:Q4",
    "Q2:Z/Z->R:Q2", "Q2:b/b->R:Q2", "Q2:c/Z->L:Q3",
    "Q3:Z/Z->L:Q3", "Q3:b/b->L:Q3", "Q3:Y/Y->R:Q1",
    "Q4:a/a->L:Q4", "Q4:Y/b->L:Q4", "Q4:X/X->R:Q0",
    "Q5:Z/Z->R:Q5", "Q5:b/b->R:Q5", "Q5:F/F->L:Q6"]
  defaultInput := "aabbbccccccF"
  accepting := ["Q6"]
  description := "Accept a^i b^j c^k F when i*j == k"

def all : List Preset := [duplicate, timesTable]

def find? (name : String) : Option Preset := all.find? fun p => p.name = name

def definition (p : Preset) (accepting : List String) : Except Definition.Error Definition :=
  Definition.ofLines p.transitions accepting

/-- The names in alphabetical order. -/
def names : List String := (all.map name).mergeSort (· ≤ ·)

end Preset

end SubstitutionAutomata
