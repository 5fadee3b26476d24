import ChainClient.Wallet

/-!
# `ChainClient.Message` — messages that are signed as text

## Contents
- **Signing.** `Message.sign` signs the hash of a text.
- **Node binding.** `Message.nodeBinding` is the text with which a node's operator binds the node to
  an address.
-/

namespace ChainClient.Message

/-- The text of a signer's signature of the hash of a message. -/
def sign (message : String) (signer : Signer) : Except ClientError String :=
  (signer.sign (Crypto.Keccak.keccak256 (Utf8.bytes message))).map Hex.marked

/-- The text that binds a node to an address: five fields between commas, marks dropped. -/
def nodeBinding (nodeId nodeType address nonce amount : String) : String :=
  ",".intercalate [Hex.unmarked nodeId, nodeType, Hex.unmarked address, nonce, amount]

end ChainClient.Message
