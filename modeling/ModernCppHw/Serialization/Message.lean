import Mathlib.Data.UInt

/-! The messages that are serialised. -/

set_option autoImplicit false

namespace ModernCppHw

structure Attachment where
  buffer : List UInt8
  deriving DecidableEq

structure Message where
  attachments : List Attachment
  text : List UInt8
  fromUser : UInt64
  toUser : UInt64
  deriving DecidableEq

structure MessageVector where
  messages : List Message
  deriving DecidableEq

end ModernCppHw
