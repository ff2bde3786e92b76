import QuorumKeeper.Text.Quoted

/-!
# Where client credentials come from

Credentials are either managed, which means made on demand and kept in a directory, or external,
which means supplied by the user and never made or overwritten.
-/

set_option autoImplicit false

namespace QuorumKeeper

/-- Where client credentials come from. -/
inductive CredentialSource where
  | managed (dir : String)
  | external (caFile certFile keyFile : String)
  deriving DecidableEq, Repr

namespace CredentialSource

/-- The credentials are supplied by the user. -/
def isExternal : CredentialSource → Bool
  | managed _ => false
  | external .. => true

/-- The source, shown for diagnosis. -/
def describe : CredentialSource → String
  | managed dir => "Managed \x7b dir: " ++ Text.quoted dir ++ " \x7d"
  | external caFile certFile keyFile =>
    "External \x7b ca_file: " ++ Text.quoted caFile ++ ", cert_file: " ++ Text.quoted certFile ++
      ", key_file: " ++ Text.quoted keyFile ++ " \x7d"

end CredentialSource

end QuorumKeeper
