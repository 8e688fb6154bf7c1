import Mathlib.Data.Int.Notation

/-!
# Error numbers

The numbers of the error codes that the modelled functions return or compare
with.  A function returns the negated number; a nonnegative value is a count
or a plain success.
-/

namespace KernelDrivers

def EPERM : Int := 1
def ENOENT : Int := 2
def EINTR : Int := 4
def EIO : Int := 5
def EAGAIN : Int := 11
def ENOMEM : Int := 12
def EFAULT : Int := 14
def EBUSY : Int := 16
def ENODEV : Int := 19
def EINVAL : Int := 22
def ENOTTY : Int := 25
def EPIPE : Int := 32
def ECONNRESET : Int := 104
def ESHUTDOWN : Int := 108
def ETIMEDOUT : Int := 110
def ERESTARTSYS : Int := 512

end KernelDrivers
