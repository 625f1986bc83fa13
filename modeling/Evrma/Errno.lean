namespace evrma

abbrev ENXIO : Int := 6
abbrev EAGAIN : Int := 11
abbrev ENOMEM : Int := 12
abbrev EACCES : Int := 13
abbrev EFAULT : Int := 14
abbrev EBUSY : Int := 16
abbrev EEXIST : Int := 17
abbrev ENODEV : Int := 19
abbrev EINVAL : Int := 22
abbrev EMFILE : Int := 24
abbrev ENOTTY : Int := 25
abbrev ENOSYS : Int := 38
abbrev EADDRINUSE : Int := 98
abbrev ERESTARTSYS : Int := 512
abbrev ENOTSUPP : Int := 524

/-- A call to the kernel that returns 0 or an error. -/
abbrev kernel_call := Except {err : Int // err < 0} Unit

end evrma
