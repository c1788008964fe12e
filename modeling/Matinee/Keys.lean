/-
# `Matinee.Keys` — the keys of tables

Tables are keyed by texts and by ids.  Both are compared and hashed lawfully; the
instances have names here, so that all tables share them.
-/
import Std.Data.ExtHashMap

namespace Matinee

instance equivBEq_text : EquivBEq String := inferInstance

instance lawfulHashable_text : LawfulHashable String := inferInstance

instance equivBEq_id : EquivBEq UInt64 := inferInstance

instance lawfulHashable_id : LawfulHashable UInt64 := inferInstance

end Matinee
