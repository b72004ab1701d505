/-!
# Logic names

**A logic** is known by a name of `standardNames`, in any letter case, or of
`extraNames`, exactly as it stands there. A star or a small `t` at the end of
a name marks a variant of a logic.
-/

namespace SmtSession.Logic

/-- The names that are known in any letter case. -/
def standardNames : List String :=
  ["ALIA", "AUFLIA", "AUFLIRA", "AUFNIRA", "BOOL", "BOOLt", "BVt", "LIA", "LIAt", "LRA", "LRAt",
   "NIA", "NRA", "QF_ABV", "QF_ABV*", "QF_ABVt", "QF_ALIA", "QF_ALIA*", "QF_ALIAt", "QF_AUFBV",
   "QF_AUFBV*", "QF_AUFBVLIRA", "QF_AUFBVLIRA*", "QF_AUFBVLIRAt", "QF_AUFBVt", "QF_AUFLIA",
   "QF_AUFLIA*", "QF_AUFLIAt", "QF_AX", "QF_AX*", "QF_AXt", "QF_BOOL", "QF_BOOLt", "QF_BV",
   "QF_BVt", "QF_IDL", "QF_IDLt", "QF_LIA", "QF_LIAt", "QF_LIRAt", "QF_LRA", "QF_LRAt", "QF_NIA",
   "QF_NIAt", "QF_NIRA", "QF_NIRAt", "QF_NRA", "QF_NRAt", "QF_RDL", "QF_RDLt", "QF_SLIA",
   "QF_SLIAt", "QF_UF", "QF_UFBV", "QF_UFBVt", "QF_UFIDL", "QF_UFIDLt", "QF_UFLIA", "QF_UFLIAt",
   "QF_UFLIRA", "QF_UFLIRAt", "QF_UFLRA", "QF_UFLRAt", "QF_UFNIA", "QF_UFNRA", "QF_UFt", "UFBVt",
   "UFLIRA", "UFLIRAt", "UFLRA", "UFLRAt", "UFNIA"]

/-- The names that are known only as they stand. -/
def extraNames : List String :=
  ["ALL", "HORN"]

/-- The characters with ASCII capitals made small. -/
def fold (name : String) : List Char :=
  name.toList.map Char.toLower

/-- Whether a name is that of a logic. -/
def isKnown (name : String) : Bool :=
  extraNames.contains name || standardNames.any fun known => fold known == fold name

end SmtSession.Logic
