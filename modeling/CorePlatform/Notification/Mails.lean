import CorePlatform.Auth.Service

/-! The mail worker of notification-service: `JobsService.process` and the mails of
`MailsService`. A job that carries `token` has no `code` and conversely. -/
namespace CorePlatform.Notification
open Auth

/-- A call of `MailsService`, with the values it puts into the mail. -/
inductive Mail where
  | verifyCode (email code : String)
  | resetPassword (email token : String)
  deriving DecidableEq

/-- The jobs of the `mail` queue. -/
inductive Job where
  | sendVerifyCode (email code : String)
  | other (job : MailJob)

/-- A worker's outcome: nothing to do, a mail handed to the transport, or a failure of
the transport, which the queue retries. -/
def process (sendMail : Mail → Except String Unit) : Job → Except Exn (Option Mail)
  | .sendVerifyCode email code =>
    match sendMail (.verifyCode email code) with
    | .ok _ => .ok (some (.verifyCode email code))
    | .error message => .error (.service
        { code := ErrorCodes.INTERNAL, statusCode := 500
          message := "Error sending verify code: " ++ message })
  | .other job =>
    if job.name = AuthService.PASSWORD_RESET_REQUESTED then
      match sendMail (.resetPassword job.email job.token) with
      | .ok _ => .ok (some (.resetPassword job.email job.token))
      | .error message => .error (.service
          { code := ErrorCodes.INTERNAL, statusCode := 500
            message := "Error sending reset password: " ++ message })
    else .ok none

end CorePlatform.Notification
